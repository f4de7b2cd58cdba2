import ChamaEscrow.Engine.StateMachine

/-!
# The event parser

`parseEscrowEvent` (`event-parser.ts`): from a signed event and the JSON value of its decrypted
content to a parsed event.  As in the source, a payload is validated first (`validatePayload`) and
then taken at its word; `readPayload` gives it its type, and leaves a field that no validator looks
at as the `JsValue` it is.

The checks on listing images, whose fields no rule of the engine reads, are left out, so that
everything the source accepts is accepted here.
-/

namespace ChamaEscrow

open Js Library

variable (host : Host)

/-! ### Kinds -/

namespace EscrowEventKind

def all : List EscrowEventKind :=
  [.create, .join, .lock, .vote, .resolve, .claim, .complete, .cancel, .chat, .subscribe,
    .periodRelease, .premium, .settlement, .planStart, .childKey, .settlementStalled, .lockStep]

def number : EscrowEventKind → ℕ
  | .create => 38100
  | .join => 38101
  | .lock => 38102
  | .vote => 38103
  | .resolve => 38104
  | .claim => 38105
  | .complete => 38106
  | .cancel => 38107
  | .chat => 38108
  | .subscribe => 38111
  | .periodRelease => 38112
  | .premium => 38113
  | .settlement => 38114
  | .planStart => 38115
  | .childKey => 38116
  | .settlementStalled => 38117
  | .lockStep => 38118

/-- `KIND_TO_TYPE`: the type field of a kind's content. -/
def typeText : EscrowEventKind → String
  | .create => "escrow:create"
  | .join => "escrow:join"
  | .lock => "escrow:lock"
  | .vote => "escrow:vote"
  | .resolve => "escrow:resolve"
  | .claim => "escrow:claim"
  | .complete => "escrow:complete"
  | .cancel => "escrow:cancel"
  | .chat => "escrow:chat"
  | .subscribe => "escrow:subscribe"
  | .periodRelease => "escrow:period_release"
  | .premium => "escrow:premium"
  | .settlement => "escrow:settlement"
  | .planStart => "escrow:plan_start"
  | .childKey => "escrow:child_key"
  | .settlementStalled => "escrow:settlement_stalled"
  | .lockStep => "escrow:lock_step"

end EscrowEventKind

/-! ### Field checks -/

/-- `typeof v === "string"`. -/
def isString (v : JsValue) : Bool := v.text?.isSome

def isNonemptyString (v : JsValue) : Bool := v.text?.any fun s => s ≠ ""

/-- `typeof v === "number"`, and the number has a property. -/
def isNumberWith (check : JsNumber → Bool) (v : JsValue) : Bool := v.number?.any check

/-- `typeof v === "number"`. -/
def isNumber (v : JsValue) : Bool := v.number?.isSome

def isPositiveNumber (v : JsValue) : Bool := isNumberWith (fun n => n.isFinite && 0 < n) v

/-- `isOptionalFiniteNumber` without the absent case. -/
def isFiniteNumber (v : JsValue) : Bool := isNumberWith JsNumber.isFinite v

/-- `typeof v === "boolean"`. -/
def isBoolean (v : JsValue) : Bool := v.bool?.isSome

def isOneOf (texts : List String) (v : JsValue) : Bool := v.text?.any fun s => s ∈ texts

/-- `Object.values(Role).includes(v)`. -/
def isRole (v : JsValue) : Bool := isOneOf (Role.all.map toString) v

/-- `Object.values(Outcome).includes(v)`. -/
def isOutcome (v : JsValue) : Bool := (v.text?.bind Outcome.ofText?).isSome

def isNetwork (v : JsValue) : Bool := isOneOf ["mainnet", "signet"] v

/-- `HEX64_RE`. -/
def isHex64 (v : JsValue) : Bool := v.text?.any (isLowerHex 64)

/-- `typeof v === "object"` for a value that is not `null`. -/
def isObject : JsValue → Bool
  | .arr _ | .obj _ => true
  | _ => false

/-- `typeof v === "object"` for a value that is neither `null` nor an array. -/
def isRecord : JsValue → Bool
  | .obj _ => true
  | _ => false

def elements : JsValue → List JsValue
  | .arr items => items
  | _ => []

/-- `Array.isArray`. -/
def isArray : JsValue → Bool
  | .arr _ => true
  | _ => false

def recordFields : JsValue → List (String × JsValue)
  | .obj fields => fields
  | _ => []

def absentOr (check : JsValue → Bool) (v : JsValue) : Bool := v.isUndefined || check v

def validEscrowXonly (v : JsValue) : Bool :=
  absentOr (fun v => v.text?.any fun s => isLowerHex 64 (toLowerCase (trim s))) v

/-! ### Menus -/

/-- The part of `validateMenuItem` that an order item shares with it. -/
def menuItemShape (idKey : String) (d : JsValue) : Bool :=
  let minAmount := d.field "minAmountMsats"
  let maxAmount := d.field "maxAmountMsats"
  let bracket := (d.field "kind").isText "exchange-bracket"
  isObject d
    && absentOr (isOneOf ["exchange-bracket", "bill", "loan", "market-item"]) (d.field "kind")
    && absentOr isPositiveNumber minAmount && absentOr isPositiveNumber maxAmount
    && !(minAmount.number?.any fun low => maxAmount.number?.any fun high => high < low)
    && !(bracket && !(isPositiveNumber minAmount && isPositiveNumber maxAmount))
    && !((!minAmount.isUndefined || !maxAmount.isUndefined) && !(d.field "kind").isUndefined
      && !bracket)
    && isNonemptyString (d.field idKey) && trim (d.textAt "label") ≠ ""
    && isPositiveNumber (d.field "amountMsats")
    && absentOr isString (d.field "description") && absentOr isNumber (d.field "fiatAmount")
    && absentOr isString (d.field "fiatCurrency")
    && absentOr (isOneOf ["physical", "service", "digital"]) (d.field "fulfillment")
    && absentOr isPositiveNumber (d.field "dueAt")
    && absentOr isPositiveNumber (d.field "termDays")
    && absentOr isPositiveNumber (d.field "aprBps")
    && absentOr isPositiveNumber (d.field "trustTier")

def validateMenuItem (d : JsValue) : Bool :=
  menuItemShape "id" d
    && absentOr (fun v => isPositiveNumber v && isNumberWith JsNumber.isInteger v)
      (d.field "maxQuantity")

def validateMenuItems (v : JsValue) : Bool :=
  absentOr (fun v => isArray v && elements v ≠ [] && (elements v).length ≤ 50
    && (elements v).all validateMenuItem && ((elements v).map fun d => d.textAt "id").Nodup) v

def validateSelectedMenuItem (d : JsValue) : Bool :=
  menuItemShape "itemId" d
    && isNumberWith (fun n => n.isInteger && 0 < n && n ≤ 99) (d.field "quantity")

def validateSelectedMenuItems (v : JsValue) : Bool :=
  absentOr (fun v => isArray v && elements v ≠ [] && (elements v).length ≤ 50
    && (elements v).all validateSelectedMenuItem) v

/-! ### Payloads -/

/-- The shape of `trancheChild`. -/
def trancheChildShape (d t : JsValue) : Bool :=
  (t.field "privatePlanChild").bool? = some true
    && (["parent", "planId", "planStartEventId", "buyerPubkey", "sellerPubkey", "arbiterPubkey",
      "termsDigest", "coordinatorPubkey"].all fun key => isString (t.field key))
    && isNumberWith JsNumber.isInteger (t.field "index")
    && isNumberWith JsNumber.isInteger (t.field "total") && isNumber (t.field "totalMsats")
    && isNetwork (t.field "bitcoinNetwork")
    && (d.field "parent").strictEq (t.field "parent")
    && (d.field "sellerPubkey").strictEq (t.field "sellerPubkey")

def validateCreatePayload (d : JsValue) : Bool :=
  let count (v : JsValue) := isPositiveNumber v && isNumberWith JsNumber.isInteger v
  let upTo (length : ℕ) (v : JsValue) := v.text?.any fun s => s.toList.length ≤ length
  validEscrowXonly (d.field "escrowXonly")
    && absentOr isBoolean (d.field "onchainPublicConduct")
    && absentOr isBoolean (d.field "onchainAtomicRelease")
    && absentOr isNetwork (d.field "onchainNetwork")
    && absentOr (isOneOf ["work", "work-request"]) (d.field "listingKind")
    && absentOr (fun v => v.text?.any fun s => s.toList.length = 10) (d.field "fedPrefix")
    && absentOr isNonemptyString (d.field "fed")
    && absentOr isNonemptyString (d.field "community")
    && absentOr (isOneOf ["ship", "meet", "service", "digital"]) (d.field "delivery")
    && absentOr (isOneOf ["physical", "service", "digital"]) (d.field "fulfillment")
    && validateMenuItems (d.field "items")
    && absentOr count (d.field "stock")
    && absentOr isNonemptyString (d.field "parent")
    && absentOr count (d.field "claimedQuantity")
    && absentOr isNonemptyString (d.field "sellerPubkey")
    && absentOr (trancheChildShape d) (d.field "trancheChild")
    && ((d.field "parent").isUndefined || isNonemptyString (d.field "sellerPubkey"))
    && isString (d.field "description")
    && absentOr (upTo 160) (d.field "title") && absentOr (upTo 8000) (d.field "body")
    && isNumberWith (fun n => 0 < n) (d.field "amountMsats")
    && absentOr isFiniteNumber (d.field "fiatAmount")
    && absentOr isString (d.field "fiatCurrency")
    && absentOr isFiniteNumber (d.field "premiumBps")
    && isString (d.field "mintUrl") && isString (d.field "category")
    && isNumber (d.field "platformFeeBps") && isString (d.field "platformFeePubkey")
    && isNumberWith (fun n => 0 < n) (d.field "expirySeconds")
    && isNumber (d.field "createdAt")

/-- `isValidOnchainLockTermsShape` without the deposit. -/
def onchainTermsShape (t : JsValue) : Bool :=
  isRecord t && isNonemptyString (t.field "address")
    && isHex64 (t.field "buyerXonly") && isHex64 (t.field "sellerXonly")
    && isHex64 (t.field "arbiterXonly")
    && [t.textAt "buyerXonly", t.textAt "sellerXonly", t.textAt "arbiterXonly"].Nodup
    && isOneOf ["buyer", "seller"] (t.field "funder")
    && isNumberWith (fun n => n.isInteger && 0 < n && n < 500000000) (t.field "refundLockUntil")
    && isNumberWith (fun n => n.isInteger && 0 ≤ n && n ≤ 65535) (t.field "disputeCsvBlocks")
    && isNetwork (t.field "network")

def depositShape (t : JsValue) : Bool :=
  isHex64 (t.field "fundingTxid")
    && isNumberWith (fun n => n.isInteger && 0 ≤ n) (t.field "fundingVout")
    && (t.field "amountSats").text?.any fun s => isDigits s && s ≠ "0"

def validateJoinPayload (d : JsValue) : Bool :=
  validEscrowXonly (d.field "escrowXonly")
    && absentOr onchainTermsShape (d.field "fundingTerms")
    && validateSelectedMenuItems (d.field "selectedItems")
    && absentOr (isNumberWith fun n => 0 < n) (d.field "amountMsats")
    && absentOr (isNumberWith fun n => 0 < n) (d.field "orderFinalizedAt")
    && isRole (d.field "role")
    && absentOr (fun v => v.text?.any fun s => s.toList.length ≤ 100) (d.field "payoutAddress")
    && isNumber (d.field "joinedAt") && absentOr isNumber (d.field "holdExpiresAt")

def isWithheldShapeEntry (e : JsValue) : Bool :=
  isObject e && isNumberWith JsNumber.isInteger (e.field "shareIndex")
    && isRecord (e.field "encryptedFor")
    && (recordFields (e.field "encryptedFor")).all fun (key, text) =>
      key ≠ "" && isNonemptyString text

def isShareCommitment (v : JsValue) : Bool := isHex64 v

def withheldShape (d : JsValue) : Bool :=
  let shares := elements (d.field "shares")
  let carries (e : JsValue) := !(recordFields (e.field "encryptedFor")).isEmpty
  (d.field "onchain").isUndefined && isArray (d.field "shares") && shares.length = 3
    && (shares.all fun e => isWithheldShapeEntry e
      && (if carries e then (e.field "commitment").isUndefined
        else isShareCommitment (e.field "commitment")))
    && (shares.filter carries).length = 1

def handleEnvelopeShape (env : JsValue) : Bool :=
  isObject env && isObject (env.field "encryptedFor")
    && (recordFields (env.field "encryptedFor")).all fun (key, text) =>
      key ≠ "" && isNonemptyString text

def validateLockPayload (d : JsValue) : Bool :=
  let onchain := d.field "onchain"
  absentOr isNonemptyString (d.field "handleId") && absentOr isNonemptyString (d.field "handle")
    && absentOr isNonemptyString (d.field "rail")
    && absentOr handleEnvelopeShape (d.field "handleEnvelope")
    && validateSelectedMenuItems (d.field "selectedItems")
    && absentOr isBoolean (d.field "arbiterPoolShare")
    && absentOr isFiniteNumber (d.field "substitutionGraceSeconds")
    && absentOr isBoolean (d.field "withheldShares")
    && ((d.field "withheldShares").bool? ≠ some true || withheldShape d)
    && (if !onchain.isUndefined then
        onchainTermsShape onchain && depositShape onchain && (elements (d.field "shares")).isEmpty
      else isString (d.field "notesHash") && (elements (d.field "shares")).length = 3)
    && isFiniteNumber (d.field "sellerReceivesMsats") && isFiniteNumber (d.field "arbiterFeeMsats")
    && isNonemptyString (d.field "buyerPubkey") && isNonemptyString (d.field "arbiterPubkey")
    && isNumber (d.field "lockedAt")

def validateLockStepPayload (d : JsValue) : Bool :=
  isHex64 (d.field "lockEventId") &&
    (if isOneOf ["accept", "withdraw"] (d.field "step") then (d.field "shares").isUndefined
    else (d.field "step").isText "release" && (elements (d.field "shares")).length = 2
      && (elements (d.field "shares")).all fun e => isWithheldShapeEntry e
        && !(recordFields (e.field "encryptedFor")).isEmpty
        && (e.field "commitment").isUndefined)

def isValidVoteShareEnvelopeShape (e : JsValue) : Bool :=
  isObject e
    && isNumberWith (fun n => n.isInteger && 0 ≤ n && n ≤ 2) (e.field "shareIndex")
    && isOutcome (e.field "outcome") && isString (e.field "notesHash")
    && isNonemptyString (e.field "recipientPubkey") && isObject (e.field "encryptedFor")
    && isString ((e.field "encryptedFor").field (e.textAt "recipientPubkey"))

/-- `validateSettlementPayload`, which reads a property of a value nobody checked. -/
def validateSettlementPayload (v : JsValue) : Except JsError Bool := do
  let type ← v.get "type"
  return type.isText "escrow:settlement" && isNonemptyString (v.field "psbt")
    && isOneOf ["coop", "arbiter", "refund"] (v.field "leaf") && isRole (v.field "role")
    && absentOr isBoolean (v.field "final")

def validateVotePayload (d : JsValue) : Except JsError Bool := do
  let payout ←
    if (d.field "onchainRelease").isUndefined then pure true
    else validateSettlementPayload (d.field "onchainRelease")
  return payout && absentOr isValidVoteShareEnvelopeShape (d.field "shareEnvelope")
    && isOutcome (d.field "outcome") && isRole (d.field "role") && isNumber (d.field "votedAt")

def validateResolvePayload (d : JsValue) : Bool :=
  isOutcome (d.field "outcome") && (elements (d.field "majority")).length = 2
    && isBoolean (d.field "arbiterInvolved") && isNumber (d.field "resolvedAt")

def validateClaimPayload (d : JsValue) : Bool :=
  isRole (d.field "claimerRole") && isString (d.field "notesHashVerification")
    && isNumber (d.field "claimedAt")

def validateCancelPayload (d : JsValue) : Bool :=
  isRole (d.field "cancellerRole") && isNumber (d.field "cancelledAt")

def validateEnvelope (d : JsValue) : Bool :=
  isRecord (d.field "encryptedFor")
    && (recordFields (d.field "encryptedFor")).all fun entry => isString entry.2

def validateChatAttachment (d : JsValue) : Bool :=
  (d.field "kind").isText "image" && isString (d.field "id")
    && ((d.field "mimeType").text?.any fun s => s.startsWith "image/")
    && ((d.field "dataUrl").text?.any fun s => s.startsWith "data:image/")
    && absentOr isString (d.field "name") && absentOr isNumber (d.field "width")
    && absentOr isNumber (d.field "height") && absentOr isNumber (d.field "sizeBytes")

def validateChatPayload (d : JsValue) : Bool :=
  isString (d.field "message")
    && absentOr (fun v => isArray v && (elements v).all validateChatAttachment)
      (d.field "attachments")
    && absentOr validateEnvelope (d.field "bodyEnvelope")
    && isRole (d.field "senderRole") && isNumber (d.field "sentAt")

def validatePremiumPayload (d : JsValue) : Bool :=
  validateEnvelope (d.field "noteEnvelope") && isRole (d.field "payerRole")
    && isOneOf ["ambient", "dispute"] (d.field "noteKind") && isNumber (d.field "sentAt")

def validateSubscribePayload (d : JsValue) : Bool :=
  isNumberWith (fun n => 0 < n && n ≤ 52) (d.field "totalPeriods")
    && isNumberWith (fun n => 0 < n) (d.field "periodAmountMsats")
    && isNumberWith (fun n => 0 < n) (d.field "periodDurationSeconds")
    && isString (d.field "description") && isNumber (d.field "startsAt")

def validatePeriodReleasePayload (d : JsValue) : Bool :=
  isNumberWith (fun n => 0 ≤ n) (d.field "periodIndex")
    && isNumberWith (fun n => 0 < n) (d.field "amountMsats")
    && isString (d.field "triggeredBy") && isNumber (d.field "releasedAt")

def validatePlanStartPayload (d : JsValue) : Bool :=
  (["planId", "termsDigest", "buyerPubkey", "sellerPubkey", "arbiterPubkey",
      "coordinatorPubkey"].all fun key => isString (d.field key))
    && isNumberWith JsNumber.isInteger (d.field "total") && isNumber (d.field "totalMsats")
    && isNetwork (d.field "bitcoinNetwork") && absentOr isString (d.field "settlementPolicy")
    && absentOr (isNumberWith JsNumber.isInteger) (d.field "sliceCount")
    && absentOr isNumber (d.field "sliceCapMsats") && isArray (d.field "tranches")
    && ((elements (d.field "tranches")).all fun row =>
      isNumberWith JsNumber.isInteger (row.field "index") && isNumber (row.field "amountMsats"))
    && isNumber (d.field "startedAt")

def validateChildKeyPayload (d : JsValue) : Bool :=
  isString (d.field "planId") && isString (d.field "parent")
    && isNumberWith JsNumber.isInteger (d.field "index") && isRole (d.field "role")
    && isNetwork (d.field "bitcoinNetwork") && isHex64 (d.field "xOnlyPubkey")
    && isNumber (d.field "publishedAt")

/-- `PAYLOAD_VALIDATORS`, on content whose type field was checked. -/
def validatePayload (kind : EscrowEventKind) (d : JsValue) : Except JsError Bool :=
  match kind with
  | .create => .ok (validateCreatePayload d)
  | .join => .ok (validateJoinPayload d)
  | .lock => .ok (validateLockPayload d)
  | .vote => validateVotePayload d
  | .resolve => .ok (validateResolvePayload d)
  | .claim => .ok (validateClaimPayload d)
  | .complete => .ok (isNumber (d.field "completedAt"))
  | .cancel => .ok (validateCancelPayload d)
  | .chat => .ok (validateChatPayload d)
  | .premium => .ok (validatePremiumPayload d)
  | .settlement => validateSettlementPayload d
  | .settlementStalled =>
    if isHex64 (d.field "proposalId") then validateSettlementPayload (d.field "payout")
    else .ok false
  | .subscribe => .ok (validateSubscribePayload d)
  | .periodRelease => .ok (validatePeriodReleasePayload d)
  | .planStart => .ok (validatePlanStartPayload d)
  | .childKey => .ok (validateChildKeyPayload d)
  | .lockStep => .ok (validateLockStepPayload d)

/-! ### Reading a validated payload -/

def roleAt (d : JsValue) (key : String) : Role := (Role.ofText? (d.textAt key)).getD .buyer

def outcomeAt (d : JsValue) (key : String) : Outcome :=
  (Outcome.ofText? (d.textAt key)).getD .release

def networkAt (d : JsValue) (key : String) : BitcoinNetwork :=
  if d.textAt key = "signet" then .signet else .mainnet

def menuKindAt? (d : JsValue) (key : String) : Option MenuItemKind :=
  [.exchangeBracket, .bill, .loan, .marketItem].find? fun kind => toString kind = d.textAt key

def readMenuItem (d : JsValue) : MenuItem where
  id := d.textAt "id"
  label := d.textAt "label"
  amountMsats := d.numberAt "amountMsats"
  kind := menuKindAt? d "kind"
  minAmountMsats := (d.field "minAmountMsats").number?
  maxAmountMsats := (d.field "maxAmountMsats").number?
  fiatCurrency := (d.field "fiatCurrency").text?
  maxQuantity := (d.field "maxQuantity").number?

def readSelectedMenuItem (d : JsValue) : SelectedMenuItem where
  itemId := d.textAt "itemId"
  label := d.textAt "label"
  amountMsats := d.numberAt "amountMsats"
  quantity := d.numberAt "quantity"
  kind := menuKindAt? d "kind"
  fiatCurrency := (d.field "fiatCurrency").text?

def readArray? {α : Type} (read : JsValue → α) : JsValue → Option (List α)
  | .arr items => some (items.map read)
  | _ => none

def readChamaPolicy : JsValue → ChamaPolicyField
  | .undefined => .absent
  | .str "share-v1" => .known .shareV1
  | .str "share-v2" => .known .shareV2
  | _ => .unknown

def readPot : JsValue → CirclePot
  | .undefined => .fillOrRefund
  | .str "rotation-v2" => .rotationV2
  | _ => .unknown

def readCircleTerms (d : JsValue) : CircleTerms where
  shareMsats := d.numberAt "shareMsats"
  seatThreshold := d.numberAt "seatThreshold"
  seatCap :=
    match d.field "seatCap" with
    | .null => none
    | v => some (v.number?.getD .nan)
  unlisted := (d.field "unlisted").bool? = some true
  pot := readPot (d.field "pot")
  fillDeadlineSec := d.numberAt "fillDeadlineSec"
  roundEndSec := d.numberAt "roundEndSec"
  roundIndex := d.numberAt "roundIndex"
  prevCircleId :=
    match d.field "prevCircleId" with
    | .null => none
    | v => some (v.text?.getD "")

def readChamaCircle (v : JsValue) : ChamaCircleField :=
  if v.isUndefined then .absent else if v.truthy then .terms (readCircleTerms v) else .falsy

def readTrancheChild? (v : JsValue) : Option TrancheChildDescriptor :=
  if v.isUndefined then none
  else some {
    parent := v.textAt "parent"
    planId := v.textAt "planId"
    planStartEventId := v.textAt "planStartEventId"
    index := v.numberAt "index"
    total := v.numberAt "total"
    totalMsats := v.numberAt "totalMsats"
    buyerPubkey := v.textAt "buyerPubkey"
    sellerPubkey := v.textAt "sellerPubkey"
    arbiterPubkey := v.textAt "arbiterPubkey"
    termsDigest := v.textAt "termsDigest"
    coordinatorPubkey := v.textAt "coordinatorPubkey"
    bitcoinNetwork := networkAt v "bitcoinNetwork" }

def readCreate (d : JsValue) : CreatePayload where
  description := d.textAt "description"
  title := (d.field "title").text?
  amountMsats := d.numberAt "amountMsats"
  fiatAmount := d.field "fiatAmount"
  fiatCurrency := d.field "fiatCurrency"
  premiumBps := d.field "premiumBps"
  category := d.textAt "category"
  fulfillment := d.field "fulfillment"
  delivery := d.field "delivery"
  chamaPolicy := readChamaPolicy (d.field "chamaPolicy")
  chamaCircle := readChamaCircle (d.field "chamaCircle")
  community := (d.field "community").text?
  tranche := d.field "tranche"
  escrowMode := d.field "escrowMode"
  onchainNetwork :=
    if (d.field "onchainNetwork").isUndefined then none else some (networkAt d "onchainNetwork")
  onchainAtomicRelease := (d.field "onchainAtomicRelease").bool?
  settlementPolicy := d.field "settlementPolicy"
  sliceCount := d.field "sliceCount"
  escrowXonly := (d.field "escrowXonly").text?
  mintUrl := d.textAt "mintUrl"
  platformFeeBps := d.numberAt "platformFeeBps"
  platformFeePubkey := d.textAt "platformFeePubkey"
  arbiterFeeMsats := d.field "arbiterFeeMsats"
  paymentMethods := d.field "paymentMethods"
  items := readArray? readMenuItem (d.field "items")
  expirySeconds := d.numberAt "expirySeconds"
  communityArbiters := d.field "communityArbiters"
  bondedArbiters := d.field "bondedArbiters"
  fedPrefix := (d.field "fedPrefix").text?
  fed := (d.field "fed").text?
  stock := (d.field "stock").number?
  parent := (d.field "parent").text?
  claimedQuantity := (d.field "claimedQuantity").number?
  sellerPubkey := (d.field "sellerPubkey").text?
  trancheChild := readTrancheChild? (d.field "trancheChild")
  subscription := d.field "subscription"
  amountRange := d.field "amountRange"
  minAmountMsats := d.field "minAmountMsats"
  maxAmountMsats := d.field "maxAmountMsats"
  createdAt := d.numberAt "createdAt"

def readFundingTerms (t : JsValue) : OnchainFundingTerms where
  address := t.textAt "address"
  buyerXonly := t.textAt "buyerXonly"
  sellerXonly := t.textAt "sellerXonly"
  arbiterXonly := t.textAt "arbiterXonly"
  funder := if t.textAt "funder" = "buyer" then .buyer else .seller
  refundLockUntil := t.numberAt "refundLockUntil"
  disputeCsvBlocks := t.numberAt "disputeCsvBlocks"
  network := networkAt t "network"
  arbiterBond := t.field "arbiterBond"

def readLockTerms (t : JsValue) : OnchainLockTerms :=
  { readFundingTerms t with
    fundingTxid := t.textAt "fundingTxid"
    fundingVout := t.numberAt "fundingVout"
    amountSats := t.textAt "amountSats" }

def readJoin (d : JsValue) : JoinPayload where
  fundingTerms :=
    if (d.field "fundingTerms").isUndefined then none
    else some (readFundingTerms (d.field "fundingTerms"))
  role := roleAt d "role"
  escrowXonly := (d.field "escrowXonly").text?
  arbiterFeeMsats := d.field "arbiterFeeMsats"
  joinedAt := d.numberAt "joinedAt"
  holdExpiresAt := (d.field "holdExpiresAt").number?
  selectedItems := readArray? readSelectedMenuItem (d.field "selectedItems")
  amountMsats := (d.field "amountMsats").number?
  orderFinalizedAt := (d.field "orderFinalizedAt").number?

/-- The fields of a LOCK that have a place of their own in `LockPayload`. -/
def lockFields : List String :=
  ["notesHash", "onchain", "shares", "sharePolicy", "arbiterPoolShare", "substitutionGraceSeconds",
    "withheldShares", "sellerReceivesMsats", "arbiterFeeMsats", "platformFeeMsats",
    "selectedItems", "buyerPubkey", "arbiterPubkey", "lockedAt"]

def readLock (d : JsValue) : LockPayload where
  notesHash := d.field "notesHash"
  onchain :=
    if (d.field "onchain").isUndefined then none else some (readLockTerms (d.field "onchain"))
  shares := d.field "shares"
  sharePolicy := d.field "sharePolicy"
  arbiterPoolShare := (d.field "arbiterPoolShare").bool?
  substitutionGraceSeconds := (d.field "substitutionGraceSeconds").number?
  withheldShares := (d.field "withheldShares").bool?
  sellerReceivesMsats := d.numberAt "sellerReceivesMsats"
  arbiterFeeMsats := d.numberAt "arbiterFeeMsats"
  platformFeeMsats := d.field "platformFeeMsats"
  selectedItems := readArray? readSelectedMenuItem (d.field "selectedItems")
  buyerPubkey := d.textAt "buyerPubkey"
  arbiterPubkey := d.textAt "arbiterPubkey"
  lockedAt := d.numberAt "lockedAt"
  rest := .obj ((recordFields d).filter fun entry => entry.1 ∉ lockFields)

def readShareEntry (e : JsValue) : LockShareEntry where
  shareIndex := e.numberAt "shareIndex"
  encryptedFor := (recordFields (e.field "encryptedFor")).map fun (key, text) =>
    (key, text.text?.getD "")

def readLockStep (d : JsValue) : LockStepPayload where
  step :=
    if d.textAt "step" = "accept" then .accept
    else if d.textAt "step" = "withdraw" then .withdraw
    else .release
  lockEventId := d.textAt "lockEventId"
  shares := (elements (d.field "shares")).map readShareEntry

def readSettlement (d : JsValue) : SettlementPayload where
  psbt := d.textAt "psbt"
  leaf :=
    if d.textAt "leaf" = "coop" then .coop
    else if d.textAt "leaf" = "arbiter" then .arbiter
    else .refund
  role := roleAt d "role"
  payoutAddress := d.field "payoutAddress"
  final := (d.field "final").bool?

def readShareEnvelope (e : JsValue) : VoteShareEnvelope where
  shareIndex := e.numberAt "shareIndex"
  outcome := outcomeAt e "outcome"
  notesHash := e.textAt "notesHash"
  recipientPubkey := e.textAt "recipientPubkey"
  encryptedFor := e.field "encryptedFor"

def readVote (d : JsValue) : VotePayload where
  onchainRelease :=
    if (d.field "onchainRelease").isUndefined then none
    else some (readSettlement (d.field "onchainRelease"))
  outcome := outcomeAt d "outcome"
  role := roleAt d "role"
  shareEnvelope :=
    if (d.field "shareEnvelope").isUndefined then none
    else some (readShareEnvelope (d.field "shareEnvelope"))
  fillEvidence := d.field "fillEvidence"
  votedAt := d.numberAt "votedAt"

def readPlanStart (d : JsValue) : PlanStartPayload where
  planId := d.textAt "planId"
  total := d.numberAt "total"
  totalMsats := d.numberAt "totalMsats"
  buyerPubkey := d.textAt "buyerPubkey"
  sellerPubkey := d.textAt "sellerPubkey"
  arbiterPubkey := d.textAt "arbiterPubkey"
  termsDigest := d.textAt "termsDigest"
  coordinatorPubkey := d.textAt "coordinatorPubkey"
  bitcoinNetwork := networkAt d "bitcoinNetwork"
  settlementPolicy := (d.field "settlementPolicy").text?
  sliceCount := (d.field "sliceCount").number?
  sliceCapMsats := (d.field "sliceCapMsats").number?
  tranches := (elements (d.field "tranches")).map fun row =>
    ⟨row.numberAt "index", row.numberAt "amountMsats"⟩
  startedAt := d.numberAt "startedAt"

def readPayload (kind : EscrowEventKind) (d : JsValue) : EscrowPayload :=
  match kind with
  | .create => .create (readCreate d)
  | .join => .join (readJoin d)
  | .lock => .lock (readLock d)
  | .vote => .vote (readVote d)
  | .resolve => .resolve {
      outcome := outcomeAt d "outcome"
      majority := (elements (d.field "majority")).map fun v => v.text?.bind Role.ofText?
      fillEvidence := d.field "fillEvidence"
      resolvedAt := d.numberAt "resolvedAt" }
  | .claim => .claim {
      claimerRole := roleAt d "claimerRole"
      notesHashVerification := d.textAt "notesHashVerification"
      claimedAt := d.numberAt "claimedAt" }
  | .complete => .complete { completedAt := d.numberAt "completedAt" }
  | .cancel => .cancel {
      cancellerRole := roleAt d "cancellerRole", cancelledAt := d.numberAt "cancelledAt" }
  | .chat => .chat {
      message := d.textAt "message"
      senderRole := roleAt d "senderRole"
      sentAt := d.numberAt "sentAt" }
  | .premium => .premium { payerRole := roleAt d "payerRole", sentAt := d.numberAt "sentAt" }
  | .settlement => .settlement (readSettlement d)
  | .settlementStalled => .settlementStalled {
      proposalId := d.textAt "proposalId", payout := readSettlement (d.field "payout") }
  | .subscribe => .subscribe {
      totalPeriods := d.numberAt "totalPeriods"
      periodAmountMsats := d.numberAt "periodAmountMsats"
      periodDurationSeconds := d.numberAt "periodDurationSeconds"
      startsAt := d.numberAt "startsAt" }
  | .periodRelease => .periodRelease {
      periodIndex := d.numberAt "periodIndex"
      amountMsats := d.numberAt "amountMsats"
      releasedAt := d.numberAt "releasedAt" }
  | .planStart => .planStart (readPlanStart d)
  | .childKey => .childKey {
      planId := d.textAt "planId"
      parent := d.textAt "parent"
      index := d.numberAt "index"
      role := roleAt d "role"
      bitcoinNetwork := networkAt d "bitcoinNetwork"
      xOnlyPubkey := d.textAt "xOnlyPubkey" }
  | .lockStep => .lockStep (readLockStep d)

/-! ### The parser -/

/-- What the reader of an event resolved of its circle, and the trade it belongs to. -/
structure ParseContext where
  parent : Option CircleView := none
  witness : Option ShareView := none
  cycle : Option ChamaCycleContext := none
  state : Option EscrowState := none

/-- `getPrevEventId`: the reply tag, else the last event tag. -/
def getPrevEventId (tags : List (List String)) : Option String :=
  match tags.find? fun tag => tag[0]? = some "e" && tag[3]? = some "reply" with
  | some tag => tag[1]?
  | none => (tags.filter fun tag => tag[0]? = some "e").getLast?.bind fun tag => tag[1]?

/-- The text of what was thrown. -/
def errorMessage : JsError → String
  | .typeError message | .rangeError message | .error message => message

/-- The content of an event, or the rejection of its type or shape; what a check throws leaves
it. -/
def decodeContent (kind : EscrowEventKind) (content : Except JsError JsValue) :
    Except JsError (Except (ErrorCode × String) EscrowPayload) := do
  let parsed ← content
  let type ← parsed.get "type"
  if !type.isText kind.typeText then
    let printed ← type.print
    return .error (.typeMismatch,
      s!"Event kind {kind.number} expects type \"{kind.typeText}\" but got \"{printed}\"")
  else if !(← validatePayload kind parsed) then
    return .error (.invalidPayload,
      s!"Payload for {kind.typeText} failed structural validation")
  else return .ok (readPayload kind parsed)

/-- The `try` around the decoding: whatever is thrown rejects the event. -/
def parsePayload (kind : EscrowEventKind) (content : Except JsError JsValue) :
    Except (ErrorCode × String) EscrowPayload :=
  match decodeContent kind content with
  | .ok decoded => decoded
  | .error e => .error (.parseError, s!"Failed to parse decrypted content: {errorMessage e}")

def parsedLaw (raw : NostrEvent) (escrowId : String) (payload : EscrowPayload)
    (context : ParseContext) : Except JsError (Option (ErrorCode × String)) :=
  match payload with
  | .create p => do
    let problem ← chamaCreateError host p escrowId raw.pubkey raw.createdAt context.parent
      context.witness context.cycle (eventIsSim raw)
    return problem.map fun message => (.invalidChamaCreate, message)
  | _ => .ok (context.state.bind fun state =>
      (outcomeLaw host state { raw, payload, escrowId, chamaCycle := context.cycle }).map
        fun message => (.chamaRefundOnly, message))

/-- `parseEscrowEvent`, from the parsed JSON of the decrypted content. -/
def parseEscrowEvent (raw : NostrEvent) (kindNumber : ℕ) (content : Except JsError JsValue)
    (context : ParseContext) : Step ParsedEscrowEvent :=
  match EscrowEventKind.all.find? fun kind => kind.number = kindNumber with
  | none => .error (.reject ⟨.invalidKind,
      s!"Event kind {kindNumber} is not a recognized escrow event kind", raw.id⟩)
  | some kind =>
    match truthyKey ((raw.tags.find? fun tag => tag[0]? = some "d").bind fun tag => tag[1]?) with
    | none => .error (.reject ⟨.missingEscrowId, "Event is missing d-tag (escrow ID)", raw.id⟩)
    | some escrowId => do
      guardErr (kind = .create ∧ !creatorMatchesEscrowId escrowId raw.pubkey) .creatorMismatch
        "CREATE is not signed by the key this escrow id names" raw.id
      let payload ← under (fun problem => .reject ⟨problem.1, problem.2, some raw.id⟩)
        (parsePayload kind content)
      let law ← js (parsedLaw host raw escrowId payload context)
      guardProblem law raw.id
      return {
        raw
        payload
        escrowId
        prevEventId := if kind = .create then none else getPrevEventId raw.tags
        chamaParent := context.parent
        chamaWitness := context.witness
        chamaCycle := context.cycle }

/-! ### What the parser promises -/

def Parsed (e : ParsedEscrowEvent) : Prop :=
  ∃ raw kindNumber content context, parseEscrowEvent host raw kindNumber content context = .ok e

@[simp]
theorem readPayload_kind (kind : EscrowEventKind) (d : JsValue) :
    (readPayload kind d).kind = kind := by
  cases kind <;> rfl

variable {host} {e : ParsedEscrowEvent}

theorem parsePayload_eq_ok {kind : EscrowEventKind} {content : Except JsError JsValue}
    {payload : EscrowPayload} (h : parsePayload kind content = .ok payload) :
    ∃ d, validatePayload kind d = .ok true ∧ payload = readPayload kind d := by
  unfold parsePayload at h
  split at h
  · rename_i decoded hdecoded
    subst h
    simp only [decodeContent, bind_eq_ok] at hdecoded
    obtain ⟨d, -, type, -, hdecoded⟩ := hdecoded
    split_ifs at hdecoded
    · simp only [bind_eq_ok, pure_eq_ok] at hdecoded
      obtain ⟨printed, -, hdecoded⟩ := hdecoded
      cases hdecoded
    · simp only [bind_eq_ok] at hdecoded
      obtain ⟨valid, hvalid, hdecoded⟩ := hdecoded
      cases valid with
      | false => cases hdecoded
      | true => exact ⟨d, hvalid, (Except.ok.inj (pure_eq_ok.mp hdecoded)).symm⟩
  · cases h

theorem Parsed.payload (h : Parsed host e) :
    ∃ d, validatePayload e.kind d = .ok true ∧ e.payload = readPayload e.kind d := by
  obtain ⟨raw, kindNumber, content, context, h⟩ := h
  unfold parseEscrowEvent at h
  split at h
  · cases h
  · split at h
    · cases h
    · simp only [bind_eq_ok, guardErr_eq_ok, under_eq_ok, pure_eq_ok] at h
      obtain ⟨-, -, payload, hpayload, law, -, -, -, rfl⟩ := h
      obtain ⟨d, hvalid, rfl⟩ := parsePayload_eq_ok hpayload
      exact ⟨d, by simpa [ParsedEscrowEvent.kind] using hvalid, by simp [ParsedEscrowEvent.kind]⟩

theorem Parsed.law (h : Parsed host e) {p : CreatePayload} (hp : e.payload = .create p) :
    chamaCreateError host p e.escrowId e.pubkey e.timestamp e.chamaParent e.chamaWitness e.chamaCycle
      (eventIsSim e.raw) = .ok none := by
  obtain ⟨raw, kindNumber, content, context, h⟩ := h
  unfold parseEscrowEvent at h
  split at h
  · cases h
  · split at h
    · cases h
    · simp only [bind_eq_ok, guardErr_eq_ok, under_eq_ok, pure_eq_ok, js_eq_ok,
        guardProblem_eq_ok] at h
      obtain ⟨-, -, payload, hpayload, law, hlaw, -, rfl, rfl⟩ := h
      dsimp only at hp
      subst hp
      simp only [parsedLaw, bind_eq_ok, pure_eq_ok] at hlaw
      obtain ⟨problem, hproblem, hnone⟩ := hlaw
      rw [Option.map_eq_none_iff] at hnone
      subst hnone
      exact hproblem

end ChamaEscrow
