import ChamaEscrow.Engine.Payloads

/-!
# The escrow state

The state the reducer folds a trade's events into, and the views of it that several rules share:
who holds a seat, when a seat lapses, who is paid under an outcome.

`participants` may hold a seat without a key (`none`); JavaScript also treats an empty key as no
seat, which is `seatKey`.
-/

namespace ChamaEscrow

open Js Library

/-- Persistent manifest deadline, `NEVER_EXPIRES`. -/
def neverExpires : JsNumber := JsNumber.maxSafeInteger

def joinHoldLockGraceSeconds : JsNumber := 120

/-- The seat hold of an on-chain trade, which waits for a confirmation. -/
def onchainJoinHoldSeconds : JsNumber := 5400

def joinHoldSeconds : JsNumber := 300

/-- Where a trade's money lives. -/
inductive EscrowMode
  | ecash
  | onchain
  deriving DecidableEq

instance : ToString EscrowMode where
  toString
    | .ecash => "ecash"
    | .onchain => "onchain"

/-! ### The record -/

/-- Who created the trade, and in which seat. -/
structure Initiator where
  pubkey : String
  role : Role
  deriving DecidableEq

/-- What a CREATE fixes for good. -/
structure TradeTerms where
  id : String
  description : String
  category : String
  chamaPolicy : Option ChamaPolicy
  chamaCircle : Option CircleTerms
  paymentMethods : Option (List String)
  items : Option (List MenuItem)
  community : Option String
  tranche : JsValue
  escrowMode : EscrowMode
  onchainNetwork : BitcoinNetwork
  onchainAtomicRelease : Option Bool
  settlementPolicy : JsValue
  sliceCount : Option JsNumber
  mintUrl : String
  stock : Option JsNumber
  parent : Option String
  claimedQuantity : Option JsNumber
  trancheChild : Option TrancheChildDescriptor
  initiator : Initiator
  createdAt : JsNumber

/-- A timed reservation of a seat. -/
structure JoinHold where
  role : Role
  pubkey : String
  joinedAt : JsNumber
  expiresAt : JsNumber
  eventId : String
  selectedItems : Option (List SelectedMenuItem)
  amountMsats : Option JsNumber
  orderFinalizedAt : Option JsNumber

structure TranchePlan extends PlanStartPayload where
  eventId : String

structure Fees where
  platformBps : JsNumber
  platformPubkey : String
  platformMsats : JsValue
  arbiterMsats : JsNumber

/-- The two shares a funder holds back, and the event that released them. -/
structure Withheld where
  lockerPubkey : String
  lockerShareIndex : JsNumber
  commitments : OrderedMap String String
  releaseEventId : Option String := none

structure LockDetails where
  notesHash : JsValue := .null
  lockedAt : Option JsNumber := none
  shares : OrderedMap String JsValue := .empty
  sharePolicy : JsValue := .undefined
  onchain : Option OnchainLockTerms := none
  arbiterPoolShare : Option Bool := none
  substitutionGraceSeconds : Option JsNumber := none
  selectedItems : Option (List SelectedMenuItem) := none
  acceptedBy : Option String := none
  acceptEventId : Option String := none
  withheld : Option Withheld := none

structure ClaimDetails where
  claimerRole : Option Role := none
  claimedAt : Option JsNumber := none
  deriving DecidableEq

inductive PeriodStatus
  | pending
  | released
  | disputed
  deriving DecidableEq

/-- The `periodStatuses` array.  Writing it at an index that is no position of the array leaves the
periods alone and adds a property beside them, which a later copy of the array drops. -/
structure PeriodStatuses where
  periods : List PeriodStatus
  properties : List (JsNumber × PeriodStatus) := []

structure SubscriptionMeta where
  totalPeriods : JsNumber
  periodAmountMsats : JsNumber
  periodDurationSeconds : JsNumber
  periodStartTimes : List JsNumber
  periodStatuses : PeriodStatuses
  releasedCount : ℕ
  totalReleasedMsats : JsNumber
  startsAt : JsNumber

/-- A request to co-sign a payout that stalled. -/
structure SettlementStalled where
  requestedAt : JsNumber
  proposalId : String
  destination : JsValue

/-- An on-chain settlement message in the state: a SETTLEMENT event, or the payout a VOTE or a
stalled request carries, under the id and author of that event. -/
structure SettlementMessage where
  raw : NostrEvent
  payload : SettlementPayload

structure EscrowState extends TradeTerms where
  status : EscrowStatus
  amountMsats : JsNumber
  escrowKeys : PerRole (Option String)
  onchainFundingTerms : Option OnchainFundingTerms
  onchainRefundClaimed : Bool
  onchainPayoutTxid : Option String
  onchainPayoutAddress : Option JsValue
  onchainPayoutSats : Option String
  settlementStalled : Option SettlementStalled
  tranchePlan : Option TranchePlan
  childKeys : PerRole (Option String)
  participants : PerRole (Option String)
  joinHolds : PerRole (Option JoinHold)
  communityArbiters : JsValue
  bondedArbiters : JsValue
  subscription : Option SubscriptionMeta
  votes : Votes
  resolvedOutcome : Option Outcome
  resolvedMajority : Option (List Role)
  actingArbiter : Option String
  fees : Fees
  lock : LockDetails
  claim : ClaimDetails
  listingExpiresAt : Option JsNumber
  tradeTimeoutSeconds : Option JsNumber
  expiresAt : JsNumber
  resolvedAt : Option JsNumber
  completedAt : Option JsNumber
  cancelledAt : Option JsNumber
  eventChain : List ParsedEscrowEvent
  chatMessages : List ParsedEscrowEvent
  premiumNotes : List ParsedEscrowEvent
  settlements : List SettlementMessage

namespace EscrowState

def lockEvent? (s : EscrowState) : Option ParsedEscrowEvent :=
  s.eventChain.find? fun e => e.kind = .lock

def hasLock (s : EscrowState) : Bool := s.eventChain.any fun e => e.kind = .lock

def hasEvent (s : EscrowState) (id : String) : Bool := s.eventChain.any fun e => e.id = id

end EscrowState

/-! ### Copies -/

namespace PeriodStatuses

/-- `periodStatuses[i]`. -/
def at? (p : PeriodStatuses) (i : JsNumber) : Option PeriodStatus :=
  match i.toNat? with
  | some n => p.periods[n]?
  | none => (p.properties.find? fun entry => entry.1 = i).map Prod.snd

/-- `periodStatuses[i] = status`. -/
def setAt (p : PeriodStatuses) (i : JsNumber) (status : PeriodStatus) : PeriodStatuses :=
  match i.toNat? with
  | some n => { p with periods := p.periods.set n status }
  | none => { p with properties := (i, status) :: p.properties }

/-- `[...periodStatuses]`: the periods alone. -/
def copy (p : PeriodStatuses) : PeriodStatuses := ⟨p.periods, []⟩

end PeriodStatuses

/-- The subscription as `cloneState` copies it. -/
def SubscriptionMeta.copy (sub : SubscriptionMeta) : SubscriptionMeta :=
  { sub with periodStatuses := sub.periodStatuses.copy }

/-- The copy every handler works on.  Spreading a pool that is no list of keys can throw, and turns
one that is a text into the list of its characters. -/
def cloneState (state : EscrowState) : Except JsError EscrowState := do
  let communityArbiters ← state.communityArbiters.spread
  let bondedArbiters ← state.bondedArbiters.spread
  return { state with
    communityArbiters := .arr communityArbiters
    bondedArbiters := .arr bondedArbiters
    subscription := state.subscription.map SubscriptionMeta.copy }

/-- What a copy keeps of its original: everything but the spelling of the pools, and the properties
that the period array has lost. -/
structure IsCopy (s next : EscrowState) : Prop where
  terms : next.toTradeTerms = s.toTradeTerms
  status : next.status = s.status
  amountMsats : next.amountMsats = s.amountMsats
  escrowKeys : next.escrowKeys = s.escrowKeys
  onchainFundingTerms : next.onchainFundingTerms = s.onchainFundingTerms
  settlementStalled : next.settlementStalled = s.settlementStalled
  tranchePlan : next.tranchePlan = s.tranchePlan
  participants : next.participants = s.participants
  joinHolds : next.joinHolds = s.joinHolds
  pool : next.communityArbiters.spread = s.communityArbiters.spread
  bonded : next.bondedArbiters.spread = s.bondedArbiters.spread
  copied : ∃ community bonded, s.communityArbiters.spread = .ok community ∧
    s.bondedArbiters.spread = .ok bonded ∧ next.communityArbiters = .arr community ∧
    next.bondedArbiters = .arr bonded
  subscription : next.subscription = s.subscription.map SubscriptionMeta.copy
  votes : next.votes = s.votes
  resolvedOutcome : next.resolvedOutcome = s.resolvedOutcome
  resolvedMajority : next.resolvedMajority = s.resolvedMajority
  actingArbiter : next.actingArbiter = s.actingArbiter
  fees : next.fees = s.fees
  lock : next.lock = s.lock
  claim : next.claim = s.claim
  tradeTimeoutSeconds : next.tradeTimeoutSeconds = s.tradeTimeoutSeconds
  expiresAt : next.expiresAt = s.expiresAt
  resolvedAt : next.resolvedAt = s.resolvedAt
  completedAt : next.completedAt = s.completedAt
  eventChain : next.eventChain = s.eventChain
  chatMessages : next.chatMessages = s.chatMessages
  premiumNotes : next.premiumNotes = s.premiumNotes
  settlements : next.settlements = s.settlements

theorem cloneState_eq_ok {s next : EscrowState} (h : cloneState s = .ok next) :
    ∃ community bonded, s.communityArbiters.spread = .ok community ∧
      s.bondedArbiters.spread = .ok bonded ∧
      next = { s with
        communityArbiters := .arr community
        bondedArbiters := .arr bonded
        subscription := s.subscription.map SubscriptionMeta.copy } := by
  simp only [cloneState, bind_eq_ok, pure_eq_ok] at h
  obtain ⟨community, hc, bonded, hb, rfl⟩ := h
  exact ⟨community, bonded, hc, hb, rfl⟩

theorem cloneState_isCopy {s next : EscrowState} (h : cloneState s = .ok next) :
    IsCopy s next := by
  obtain ⟨community, bonded, hpool, hbonded, rfl⟩ := cloneState_eq_ok h
  constructor
  case pool => exact hpool.symm
  case bonded => exact hbonded.symm
  case copied => exact ⟨community, bonded, hpool, hbonded, rfl, rfl⟩
  all_goals rfl

/-! ### Seats -/

def truthyKey (key : Option String) : Option String := key.filter fun k => k ≠ ""

def joinHoldSecondsFor (mode : EscrowMode) : JsNumber :=
  if mode = .onchain then onchainJoinHoldSeconds else joinHoldSeconds

def joinHoldExpiresAtFor (joinedAt : JsNumber) (mode : EscrowMode) : JsNumber :=
  joinedAt + joinHoldSecondsFor mode

/-- `roleUsesJoinHold`: the principal who did not create the trade holds the seat for a time. -/
def roleUsesJoinHold (role initiatorRole : Role) : Bool :=
  role.isPrincipal && role ≠ initiatorRole

/-- `getRole`: the seat a key sits in. -/
def getRole (state : EscrowState) (pubkey : String) : Option Role :=
  Role.all.find? fun role => state.participants.get role = some pubkey

def awaitsFunding (state : EscrowState) : Bool :=
  state.status = .created ||
    (state.status = .expired && state.onchainFundingTerms.isSome && state.lock.lockedAt.isNone
      && state.lock.onchain.isNone)

/-- When the hold on the seat of `role` lapses, if the hold is its occupant's. -/
def holdLapsesAt (state : EscrowState) (role : Role) : Option JsNumber :=
  match state.joinHolds.get role with
  | some hold =>
    if some hold.pubkey = state.participants.get role then
      some (hold.expiresAt + joinHoldLockGraceSeconds)
    else none
  | none => none

def earliest : Option JsNumber → Option JsNumber → Option JsNumber
  | some a, some b => some (a.min b)
  | some a, none => some a
  | none, b => b

/-- `preLockDeadline(state, now)?.lapsed`: the first deadline of an unfunded trade has passed. -/
def preLockLapsed (state : EscrowState) (now : JsNumber) : Bool :=
  let listingAt :=
    if state.expiresAt.isFinite && 0 < state.expiresAt && state.expiresAt ≠ neverExpires then
      some state.expiresAt
    else none
  let holdAt :=
    if state.tranchePlan.isSome then none
    else earliest (holdLapsesAt state .buyer) (holdLapsesAt state .seller)
  awaitsFunding state && ((earliest holdAt listingAt).any fun deadline => deadline ≤ now)

/-- `getEffectiveParticipantAt`: the occupant of a seat, unless the hold on it has lapsed.
`graceSeconds` extends the hold when a LOCK is judged. -/
def getEffectiveParticipantAt (state : EscrowState) (role : Role) (at_ : JsNumber)
    (graceSeconds : JsNumber := 0) : Option String :=
  match truthyKey (state.participants.get role) with
  | none => none
  | some pubkey =>
    if state.tranchePlan.isSome then some pubkey
    else if !awaitsFunding state then some pubkey
    else if state.onchainFundingTerms.isSome && preLockLapsed state at_
        && role ≠ state.initiator.role then none
    else
      match state.joinHolds.get role with
      | none => some pubkey
      | some hold =>
        if hold.pubkey ≠ pubkey then some pubkey
        else if at_ < hold.expiresAt + graceSeconds then some pubkey
        else none

/-- `getActiveRole`: the seat a key holds at a time. -/
def getActiveRole (state : EscrowState) (pubkey : String) (at_ : JsNumber) : Option Role :=
  Role.all.find? fun role => getEffectiveParticipantAt state role at_ = some pubkey

def tradeTimeoutSecondsFor (state : EscrowState) : JsNumber :=
  state.tradeTimeoutSeconds.getD (JsNumber.max 1 (state.expiresAt - state.createdAt))

/-! ### Payees -/

def buyerFunds (state : EscrowState) : Bool :=
  state.category = "marketplace" || state.chamaPolicy.isSome

def payoutRole (state : EscrowState) (outcome : Outcome) : Role :=
  match outcome with
  | .release => if buyerFunds state then .seller else .buyer
  | .refund => if buyerFunds state then .buyer else .seller

/-- `payoutRecipientFor`: the key and role paid under an outcome. -/
def payoutRecipientFor (state : EscrowState) (outcome : Outcome) : Option (String × Role) :=
  if state.chamaPolicy = some .shareV1 ∧ outcome ≠ .refund then none
  else (truthyKey (state.participants.get (payoutRole state outcome))).map fun pubkey =>
    (pubkey, payoutRole state outcome)

/-- `getWinner`: the payee of the resolved outcome. -/
def getWinner (state : EscrowState) : Option (String × Role) :=
  state.resolvedOutcome.bind (payoutRecipientFor state)

/-! ### Dated rules -/

/-- `2026-11-01T00:00:00Z`: the money-path rules. -/
def moneyPathHardeningCreateAt : JsNumber := 1793491200

/-- `2026-12-01T00:00:00Z`: a stranger cannot carry a funded trade past its deadline, and a LOCK may
withhold shares. -/
def decemberCreateAt : JsNumber := 1796083200

def lockTimestampSkewSeconds : JsNumber := 300

def usesMoneyPathHardening (createdAt : JsNumber) : Bool := moneyPathHardeningCreateAt ≤ createdAt

def usesDecemberTradeRules (createdAt : JsNumber) : Bool := decemberCreateAt ≤ createdAt

/-- `usesWithheldShares`: a rule set of its own, in force from the same date. -/
def usesWithheldShares (createdAt : JsNumber) : Bool := decemberCreateAt ≤ createdAt

end ChamaEscrow
