import ChamaEscrow.Engine.EventParser
import ChamaEscrow.Engine.StateMachine
import ChamaEscrow.Engine.Storefront

/-!
# Orders of a storefront

How a buyer's client writes the CREATE of a purchase (`buildChildCreateParams` of `storefront.ts`,
and what `createEscrow` of `escrow-client.ts` makes of its parameters), up to the parse and the
application that it runs on the event before it publishes it.

The state of a listing keeps a few fields of its CREATE that no handler reads or changes; they are
read from that CREATE here.
-/

namespace ChamaEscrow

open Js Library

/-! ### The parameters -/

def isParentStorefront (s : EscrowState) : Bool := s.stock.isSome && s.parent.isNone

/-- The fulfillment that `handleCreate` writes into a state. -/
def createFulfillment (p : CreatePayload) : JsValue :=
  if p.category = "marketplace" then
    if p.delivery.truthy then
      if p.delivery.isText "service" || p.delivery.isText "digital" then p.delivery
      else .str "physical"
    else p.fulfillment.orElse (.str "physical")
  else .str "service"

def createField (s : EscrowState) (field : CreatePayload → JsValue) : JsValue :=
  (childCreate s).elim .undefined field

structure ChildCreateParams where
  description : String
  amountMsats : JsNumber
  fiatAmount : Option JsNumber
  fiatCurrency : JsValue
  premiumBps : JsValue
  category : String
  fulfillment : JsValue
  community : Option String
  mintUrl : String
  paymentMethods : Option (List String)
  arbiterFeeMsats : JsNumber
  communityArbiters : JsValue
  parent : String
  claimedQuantity : JsNumber
  sellerPubkey : String

def buildChildCreateParams (parent : EscrowState) (claimedQuantity : JsNumber) :
    Except JsError ChildCreateParams :=
  if !claimedQuantity.isInteger ∨ claimedQuantity ≤ 0 then
    .error (.error ("buildChildCreateParams: claimedQuantity must be a positive integer "
      ++ s!"(got {claimedQuantity})"))
  else if parent.category ≠ "marketplace" then
    .error (.error ("buildChildCreateParams: only marketplace listings spawn children "
      ++ s!"(parent is {parent.category})"))
  else if parent.parent.isSome then
    .error (.error "buildChildCreateParams: cannot spawn a child of a child")
  else match truthyKey parent.participants.seller with
  | none => .error (.error "buildChildCreateParams: parent listing has no seller to buy from")
  | some sellerPubkey => .ok {
      description := parent.description
      amountMsats := parent.amountMsats * claimedQuantity
      fiatAmount := (createField parent CreatePayload.fiatAmount).number?.map (· * claimedQuantity)
      fiatCurrency := createField parent CreatePayload.fiatCurrency
      premiumBps := createField parent CreatePayload.premiumBps
      category := parent.category
      fulfillment := createField parent createFulfillment
      community := truthyKey parent.community
      mintUrl := parent.mintUrl
      paymentMethods := parent.paymentMethods
      arbiterFeeMsats := parent.fees.arbiterMsats
      communityArbiters := parent.communityArbiters
      parent := parent.id
      claimedQuantity
      sellerPubkey }

/-! ### The event -/

/-- What `createEscrow` takes from the configuration of its client: the platform fee with its key,
which may be unset, and how long a trade runs by default. -/
structure CreateConfig where
  defaultPlatformFeeBps : JsNumber
  platformFeePubkey : String
  defaultExpirySeconds : JsNumber
  fee_finite : defaultPlatformFeeBps.isFinite = true
  expiry_finite : defaultExpirySeconds.isFinite = true
  expiry_pos : 0 < defaultExpirySeconds

def wireNumber (n : JsNumber) : JsValue := if n.isFinite then .num n else .null

def ChildCreateParams.wireFulfillment (params : ChildCreateParams) : JsValue :=
  if params.category = "marketplace" then params.fulfillment.orElse (.str "physical")
  else .str "service"

/-- The content of the CREATE that `createEscrow` writes for a purchase, as it is read back. -/
def childContent (config : CreateConfig) (pubkey : String) (now : JsNumber)
    (params : ChildCreateParams) : JsValue :=
  let fulfillment := params.wireFulfillment
  .obj [
    ("type", .str "escrow:create"),
    ("description", .str params.description),
    ("amountMsats", wireNumber params.amountMsats),
    ("fiatAmount", params.fiatAmount.elim .undefined wireNumber),
    ("fiatCurrency", params.fiatCurrency),
    ("premiumBps", params.premiumBps),
    ("category", .str params.category),
    ("fulfillment", fulfillment),
    ("delivery",
      if params.category = "marketplace" then
        if fulfillment.isText "physical" then .str "ship" else fulfillment
      else .undefined),
    ("community", params.community.elim .undefined .str),
    ("mintUrl", .str params.mintUrl),
    ("platformFeeBps", wireNumber config.defaultPlatformFeeBps),
    ("platformFeePubkey",
      .str (if config.platformFeePubkey = "" then pubkey else config.platformFeePubkey)),
    ("arbiterFeeMsats", wireNumber params.arbiterFeeMsats),
    ("paymentMethods", params.paymentMethods.elim .undefined fun methods =>
      .arr (methods.map .str)),
    ("expirySeconds", wireNumber config.defaultExpirySeconds),
    ("communityArbiters", params.communityArbiters),
    ("parent", .str params.parent),
    ("claimedQuantity", wireNumber params.claimedQuantity),
    ("sellerPubkey", .str params.sellerPubkey),
    ("createdAt", wireNumber now)]

def childTags (escrowId : String) (params : ChildCreateParams) : List (List String) :=
  let given (tag : String) (value : Option String) := (truthyKey value).toList.map fun v => [tag, v]
  [["d", escrowId], ["t", "escrow:create"], ["amount", params.amountMsats.toText],
    ["mint", params.mintUrl]]
    ++ given "currency" params.fiatCurrency.text?
    ++ given "cat" (some params.category)
    ++ given "community" params.community
    ++ [["fulfillment", params.wireFulfillment.text?.getD ""]]
    ++ given "parent" (some params.parent)
    ++ given "p" (some params.sellerPubkey)

/-- `purchaseFromListing`, up to the publication: the CREATE under a fresh id, signed by the buyer,
is parsed and applied as every client will. -/
def purchaseFromListing (host : Host) (config : CreateConfig) (parent : EscrowState)
    (claimedQuantity : JsNumber) (escrowId : String) (signed : NostrEvent) : Step EscrowState := do
  let params ← js (buildChildCreateParams parent claimedQuantity)
  let event ← parseEscrowEvent host { signed with tags := childTags escrowId params }
    EscrowEventKind.create.number (.ok (childContent config signed.pubkey signed.createdAt params)) {}
  applyEvent host none event

end ChamaEscrow
