import ChamaEscrow.Engine.Types

/-!
# Payloads and events

The payload of each event kind, as the parser passes it to the reducer, and the parsed event around
it.  A field of type `JsValue` is one that the parser does not check; an optional field of any other
type is one that it checks only when present.

An event of a circle carries what its reader resolved of the circle: the parent, the witness share,
and the cycle.  Those are states of other trades; `CircleView` and `ShareView` hold the part of them
that the circle rules read.
-/

namespace ChamaEscrow

open Js Library

/-! ### Menus and orders -/

inductive MenuItemKind
  | exchangeBracket
  | bill
  | loan
  | marketItem
  deriving DecidableEq

instance : ToString MenuItemKind where
  toString
    | .exchangeBracket => "exchange-bracket"
    | .bill => "bill"
    | .loan => "loan"
    | .marketItem => "market-item"

structure MenuItem where
  id : String
  label : String
  amountMsats : JsNumber
  kind : Option MenuItemKind := none
  minAmountMsats : Option JsNumber := none
  maxAmountMsats : Option JsNumber := none
  fiatCurrency : Option String := none
  maxQuantity : Option JsNumber := none

structure SelectedMenuItem where
  itemId : String
  label : String
  amountMsats : JsNumber
  quantity : JsNumber
  kind : Option MenuItemKind := none
  fiatCurrency : Option String := none
  deriving DecidableEq

/-! ### On-chain terms -/

inductive BitcoinNetwork
  | mainnet
  | signet
  deriving DecidableEq

/-- Which principal the refund leaf pays. -/
inductive Funder
  | buyer
  | seller
  deriving DecidableEq

def Funder.role : Funder → Role
  | .buyer => .buyer
  | .seller => .seller

/-- The terms an escrow address is computed from. -/
structure OnchainFundingTerms where
  address : String
  buyerXonly : String
  sellerXonly : String
  arbiterXonly : String
  funder : Funder
  refundLockUntil : JsNumber
  disputeCsvBlocks : JsNumber
  network : BitcoinNetwork
  arbiterBond : JsValue := .undefined

structure OnchainLockTerms extends OnchainFundingTerms where
  fundingTxid : String
  fundingVout : JsNumber
  amountSats : String

inductive SettlementLeaf
  | coop
  | arbiter
  | refund
  deriving DecidableEq

/-- An on-chain settlement message: a partially signed transaction. -/
structure SettlementPayload where
  psbt : String
  leaf : SettlementLeaf
  role : Role
  payoutAddress : JsValue := .undefined
  final : Option Bool := none

/-! ### Tranches -/

structure TrancheDescriptor where
  index : JsNumber
  amountMsats : JsNumber
  deriving DecidableEq

structure PlanStartPayload where
  planId : String
  total : JsNumber
  totalMsats : JsNumber
  buyerPubkey : String
  sellerPubkey : String
  arbiterPubkey : String
  termsDigest : String
  coordinatorPubkey : String
  bitcoinNetwork : BitcoinNetwork
  settlementPolicy : Option String
  sliceCount : Option JsNumber
  sliceCapMsats : Option JsNumber
  tranches : List TrancheDescriptor
  startedAt : JsNumber

/-- How a private child of a plan names its plan. -/
structure TrancheChildDescriptor where
  parent : String
  planId : String
  planStartEventId : String
  index : JsNumber
  total : JsNumber
  totalMsats : JsNumber
  buyerPubkey : String
  sellerPubkey : String
  arbiterPubkey : String
  termsDigest : String
  coordinatorPubkey : String
  bitcoinNetwork : BitcoinNetwork

structure ChildKeyPayload where
  planId : String
  parent : String
  index : JsNumber
  role : Role
  bitcoinNetwork : BitcoinNetwork
  xOnlyPubkey : String

/-! ### Circles -/

inductive ChamaPolicy
  | shareV1
  | shareV2
  deriving DecidableEq

/-- The `chamaPolicy` field of a CREATE. -/
inductive ChamaPolicyField
  | absent
  | known (policy : ChamaPolicy)
  | unknown
  deriving DecidableEq

/-- The `pot` field of a circle. -/
inductive CirclePot
  | fillOrRefund
  | rotationV2
  | unknown
  deriving DecidableEq

/-- The terms of a circle round.  A field that should be a number and is none is read as `NaN`, and
a previous circle that is no text as the empty one: the round's own rules refuse both. -/
structure CircleTerms where
  shareMsats : JsNumber
  seatThreshold : JsNumber
  seatCap : Option JsNumber
  unlisted : Bool
  pot : CirclePot
  fillDeadlineSec : JsNumber
  roundEndSec : JsNumber
  roundIndex : JsNumber
  prevCircleId : Option String

/-- The `chamaCircle` field of a CREATE: absent, present but no circle, or the terms. -/
inductive ChamaCircleField
  | absent
  | falsy
  | terms (circle : CircleTerms)

structure CircleView where
  id : String
  category : String
  chamaCircle : Option CircleTerms
  creatorPubkey : String
  community : Option String
  mintUrl : String
  description : String
  createdAt : JsNumber
  communityArbiters : JsValue
  bondedArbiters : JsValue
  fed : Option String
  fedPrefix : Option String

/-- What the circle rules read of a replayed share.  `lockTimestamp` is the signed time of its LOCK,
and a share that holds one has its member in the buyer seat. -/
structure ShareView where
  id : String
  chamaPolicy : Option ChamaPolicy
  parent : Option String
  buyer : Option String
  lockTimestamp : Option JsNumber

/-- The circles and shares of one rotation, as its reader resolved them. -/
structure ChamaCycleContext where
  circles : List CircleView
  shares : List ShareView

/-! ### The payloads -/

structure CreatePayload where
  description : String
  title : Option String := none
  amountMsats : JsNumber
  fiatAmount : JsValue := .undefined
  fiatCurrency : JsValue := .undefined
  premiumBps : JsValue := .undefined
  category : String
  fulfillment : JsValue := .undefined
  delivery : JsValue := .undefined
  chamaPolicy : ChamaPolicyField := .absent
  chamaCircle : ChamaCircleField := .absent
  community : Option String := none
  tranche : JsValue := .undefined
  escrowMode : JsValue := .undefined
  onchainNetwork : Option BitcoinNetwork := none
  onchainAtomicRelease : Option Bool := none
  settlementPolicy : JsValue := .undefined
  sliceCount : JsValue := .undefined
  escrowXonly : Option String := none
  mintUrl : String
  platformFeeBps : JsNumber
  platformFeePubkey : String
  arbiterFeeMsats : JsValue := .undefined
  paymentMethods : JsValue := .undefined
  items : Option (List MenuItem) := none
  expirySeconds : JsNumber
  communityArbiters : JsValue := .undefined
  bondedArbiters : JsValue := .undefined
  fedPrefix : Option String := none
  fed : Option String := none
  stock : Option JsNumber := none
  parent : Option String := none
  claimedQuantity : Option JsNumber := none
  sellerPubkey : Option String := none
  trancheChild : Option TrancheChildDescriptor := none
  subscription : JsValue := .undefined
  amountRange : JsValue := .undefined
  minAmountMsats : JsValue := .undefined
  maxAmountMsats : JsValue := .undefined
  createdAt : JsNumber

structure JoinPayload where
  fundingTerms : Option OnchainFundingTerms := none
  role : Role
  escrowXonly : Option String := none
  arbiterFeeMsats : JsValue := .undefined
  joinedAt : JsNumber
  holdExpiresAt : Option JsNumber := none
  selectedItems : Option (List SelectedMenuItem) := none
  amountMsats : Option JsNumber := none
  orderFinalizedAt : Option JsNumber := none

/-- Content of a LOCK event.  `rest` holds the fields that only the comparison of two LOCKs of one
author reads. -/
structure LockPayload where
  notesHash : JsValue := .undefined
  onchain : Option OnchainLockTerms := none
  shares : JsValue := .undefined
  sharePolicy : JsValue := .undefined
  arbiterPoolShare : Option Bool := none
  substitutionGraceSeconds : Option JsNumber := none
  withheldShares : Option Bool := none
  sellerReceivesMsats : JsNumber
  arbiterFeeMsats : JsNumber
  platformFeeMsats : JsValue := .undefined
  selectedItems : Option (List SelectedMenuItem) := none
  buyerPubkey : String
  arbiterPubkey : String
  lockedAt : JsNumber
  rest : JsValue := .undefined

/-- A share with ciphertexts per holder. -/
structure LockShareEntry where
  shareIndex : JsNumber
  encryptedFor : List (String × String)

inductive LockStepKind
  | accept
  | release
  | withdraw
  deriving DecidableEq

structure LockStepPayload where
  step : LockStepKind
  lockEventId : String
  shares : List LockShareEntry := []

structure VoteShareEnvelope where
  shareIndex : JsNumber
  outcome : Outcome
  notesHash : String
  recipientPubkey : String
  encryptedFor : JsValue

structure VotePayload where
  onchainRelease : Option SettlementPayload := none
  outcome : Outcome
  role : Role
  shareEnvelope : Option VoteShareEnvelope := none
  fillEvidence : JsValue := .undefined
  votedAt : JsNumber

/-- Content of a RESOLVE event.  An element of `majority` that names no role is `none`. -/
structure ResolvePayload where
  outcome : Outcome
  majority : List (Option Role)
  fillEvidence : JsValue := .undefined
  resolvedAt : JsNumber

structure ClaimPayload where
  claimerRole : Role
  notesHashVerification : String
  claimedAt : JsNumber

structure CompletePayload where
  completedAt : JsNumber

structure CancelPayload where
  cancellerRole : Role
  cancelledAt : JsNumber

structure ChatPayload where
  message : String
  senderRole : Role
  sentAt : JsNumber

structure PremiumPayload where
  payerRole : Role
  sentAt : JsNumber

structure SubscribePayload where
  totalPeriods : JsNumber
  periodAmountMsats : JsNumber
  periodDurationSeconds : JsNumber
  startsAt : JsNumber

structure PeriodReleasePayload where
  periodIndex : JsNumber
  amountMsats : JsNumber
  releasedAt : JsNumber

structure SettlementStalledPayload where
  proposalId : String
  payout : SettlementPayload

/-- The content of an event, one constructor for each kind. -/
inductive EscrowPayload
  | create (p : CreatePayload)
  | join (p : JoinPayload)
  | lock (p : LockPayload)
  | vote (p : VotePayload)
  | resolve (p : ResolvePayload)
  | claim (p : ClaimPayload)
  | complete (p : CompletePayload)
  | cancel (p : CancelPayload)
  | chat (p : ChatPayload)
  | subscribe (p : SubscribePayload)
  | periodRelease (p : PeriodReleasePayload)
  | premium (p : PremiumPayload)
  | settlement (p : SettlementPayload)
  | planStart (p : PlanStartPayload)
  | childKey (p : ChildKeyPayload)
  | settlementStalled (p : SettlementStalledPayload)
  | lockStep (p : LockStepPayload)

inductive EscrowEventKind
  | create
  | join
  | lock
  | vote
  | resolve
  | claim
  | complete
  | cancel
  | chat
  | subscribe
  | periodRelease
  | premium
  | settlement
  | planStart
  | childKey
  | settlementStalled
  | lockStep
  deriving DecidableEq

def EscrowPayload.kind : EscrowPayload → EscrowEventKind
  | create _ => .create
  | join _ => .join
  | lock _ => .lock
  | vote _ => .vote
  | resolve _ => .resolve
  | claim _ => .claim
  | complete _ => .complete
  | cancel _ => .cancel
  | chat _ => .chat
  | subscribe _ => .subscribe
  | periodRelease _ => .periodRelease
  | premium _ => .premium
  | settlement _ => .settlement
  | planStart _ => .planStart
  | childKey _ => .childKey
  | settlementStalled _ => .settlementStalled
  | lockStep _ => .lockStep

/-! ### Events -/

/-- A signed Nostr event, without its content.  Its id is a hash and its author a key, so neither is
empty, and a time read from JSON is never `NaN`. -/
structure NostrEvent where
  id : String
  pubkey : String
  createdAt : JsNumber
  tags : List (List String) := []
  id_ne : id ≠ "" := by decide
  pubkey_ne : pubkey ≠ "" := by decide
  createdAt_ne : createdAt ≠ .nan := by decide

structure ParsedEscrowEvent where
  raw : NostrEvent
  payload : EscrowPayload
  escrowId : String
  prevEventId : Option String := none
  chamaParent : Option CircleView := none
  chamaWitness : Option ShareView := none
  chamaCycle : Option ChamaCycleContext := none

namespace ParsedEscrowEvent

def id (e : ParsedEscrowEvent) : String := e.raw.id

def pubkey (e : ParsedEscrowEvent) : String := e.raw.pubkey

def timestamp (e : ParsedEscrowEvent) : JsNumber := e.raw.createdAt

def kind (e : ParsedEscrowEvent) : EscrowEventKind := e.payload.kind

end ParsedEscrowEvent

end ChamaEscrow
