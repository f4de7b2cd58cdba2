import ChamaEscrow.Engine.Circles
import ChamaEscrow.Engine.Onchain
import ChamaEscrow.Engine.Plans

/-!
# Handlers before custody

The reducer's handlers for the events that set a trade up (`state-machine.ts`): CREATE, PLAN_START,
CHILD_KEY, JOIN, SUBSCRIBE and CANCEL.
-/

namespace ChamaEscrow

open Js Library

/-! ### Shared helpers -/

/-- `sanitizeArbiterFeeMsats`: an integer between zero and the amount, whatever was signed. -/
def sanitizeArbiterFeeMsats (value : JsValue) (amountMsats : JsNumber) : JsNumber :=
  match value with
  | .num fee =>
    if !fee.isFinite then 0
    else
      let cap := if amountMsats.isFinite && 0 < amountMsats then amountMsats.floor else 0
      JsNumber.max 0 (JsNumber.min cap fee.floor)
  | _ => 0

/-- `normalizePaymentMethods` over the methods left, with the keys seen so far. -/
def normalizeMethods : List JsValue → (seen : List String) → Except JsError (List String)
  | [], _ => .ok []
  | method :: rest, seen => do
    let value ← method.trimmed
    let key := toLowerCase value
    if value = "" ∨ key ∈ seen then normalizeMethods rest seen
    else return value :: (← normalizeMethods rest (key :: seen))

def normalizePaymentMethods (methods : JsValue) : Except JsError (Option (List String)) :=
  if !methods.truthy then .ok none
  else do
    let cleaned ← normalizeMethods (← methods.spread) []
    return if cleaned.isEmpty then none else some cleaned

/-- `cloneMenuItem`: an empty currency is dropped. -/
def cloneMenuItem (item : MenuItem) : MenuItem :=
  { item with label := trim item.label, fiatCurrency := item.fiatCurrency.filter fun s => s ≠ "" }

def cloneSelectedMenuItem (item : SelectedMenuItem) : SelectedMenuItem :=
  { item with label := trim item.label, fiatCurrency := item.fiatCurrency.filter fun s => s ≠ "" }

def selectedItemsTotalMsats (items : List SelectedMenuItem) : JsNumber :=
  items.foldl (fun sum item => sum + item.amountMsats * item.quantity) 0

/-- `eventIsSim`: the event was published by a simulation. -/
def eventIsSim (raw : NostrEvent) : Bool := raw.tags.any fun tag => tag.head? = some "chama-sim"

def EscrowState.push (s : EscrowState) (e : ParsedEscrowEvent) : List ParsedEscrowEvent :=
  s.eventChain ++ [e]

variable (host : Host)

/-! ### CREATE -/

def sliceCountGate (event : ParsedEscrowEvent) (p : CreatePayload) (count : JsNumber) :
    Step (Option JsNumber) := do
  guardErr (!count.isSafeInteger ∨ count < 1) .invalidCreate
    "sliceCount must be a positive safe integer (1 = single settlement)" event.id
  guardErr (maxSliceCount < count) .invalidCreate
    s!"sliceCount exceeds MAX_SLICE_COUNT ({maxSliceCount})" event.id
  let floor ← js (minSlicesForCap p.amountMsats)
  guardErr (maxSliceCount < floor) .invalidCreate
    s!"amountMsats requires more than MAX_SLICE_COUNT ({maxSliceCount}) slices" event.id
  guardErr (p.amountMsats < count * 1000) .invalidCreate
    "amountMsats too small for a positive amount in every slice" event.id
  return some count

/-- The gates on the settlement policy and on the slice count, which is meaningful on the ecash
rail alone. -/
def slicePolicyGate (event : ParsedEscrowEvent) (p : CreatePayload) (mode : EscrowMode) :
    Step (Option JsNumber) := do
  let sliced := !p.sliceCount.isUndefined
  guardErr (mode = .onchain ∧ sliced) .onchainSlicingUnsupported
    "On-chain escrows are single-settlement; sliceCount is ecash-only" event.id
  let stated := statedPolicy p.settlementPolicy mode
  let printed ←
    if stated.isText (defaultSettlementPolicy mode) then pure ""
    else js p.settlementPolicy.print
  guardErr (!stated.isText (defaultSettlementPolicy mode)) .settlementPolicyModeMismatch
    s!"settlementPolicy \"{printed}\" does not match escrowMode \"{mode}\"" event.id
  guardErr (sliced ∧ !stated.isText settlementPolicyEcashSlices) .onchainSlicingUnsupported
    "sliceCount requires the ecash-mutual-slices settlement policy" event.id
  match p.sliceCount with
  | .undefined => return none
  | value => sliceCountGate event p (value.number?.getD .nan)

/-- Who a CREATE seats: the frozen participants of a tranche child, the buyer and the named seller
of a child purchase, and else the signer in the seat its category gives the creator. -/
def createSeats (event : ParsedEscrowEvent) (p : CreatePayload) :
    Role × PerRole (Option String) :=
  match p.trancheChild with
  | some child =>
    (.seller, ⟨some child.buyerPubkey, some child.sellerPubkey, some child.arbiterPubkey⟩)
  | none =>
    if p.parent.isSome ∧ p.sellerPubkey.isSome then
      (.buyer, ⟨some event.pubkey, p.sellerPubkey, none⟩)
    else if p.category = "lending" then (.buyer, ⟨some event.pubkey, none, none⟩)
    else (.seller, ⟨none, some event.pubkey, none⟩)

def shareArbiter (event : ParsedEscrowEvent) (p : CreatePayload) (seated : Option String) :
    Step (Option String) :=
  match p.chamaPolicy with
  | .absent => return seated
  | _ => do
    let arbiter ← js (pickPreferredArbiter (p.communityArbiters.orElse (.arr []))
      (p.bondedArbiters.orElse (.arr [])) event.escrowId [some event.pubkey, p.sellerPubkey])
    guardErr (truthyKey arbiter).isNone .invalidChamaCreate "Share requires a distinct pool arbiter"
      event.id
    return arbiter

def ChamaPolicyField.policy : ChamaPolicyField → Option ChamaPolicy
  | known policy => some policy
  | _ => none

def createCircle (event : ParsedEscrowEvent) (p : CreatePayload) : Option CircleTerms :=
  match p.chamaPolicy, p.chamaCircle with
  | .absent, .terms circle => some circle
  | .absent, _ => none
  | _, _ => event.chamaParent.bind CircleView.chamaCircle

def createMode (p : CreatePayload) : EscrowMode :=
  if p.escrowMode.isText "onchain" then .onchain else .ecash

/-- `handleCreate`: the initial state of a trade. -/
def handleCreate (event : ParsedEscrowEvent) (p : CreatePayload) : Step EscrowState := do
  let chamaError ← js (chamaCreateError host p event.escrowId event.pubkey event.timestamp
    event.chamaParent event.chamaWitness event.chamaCycle (eventIsSim event.raw))
  guardNone chamaError .invalidChamaCreate event.id
  guardErr (!creatorMatchesEscrowId event.escrowId event.pubkey) .creatorMismatch
    "CREATE is not signed by the key this escrow id names" event.id
  guardErr (p.description = "" ∨ p.amountMsats ≤ 0) .invalidCreate
    "CREATE requires description and positive amount" event.id
  guardErr (p.mintUrl = "" ∧ !p.escrowMode.isText "onchain") .invalidCreate
    "CREATE requires a mint URL / federation invite" event.id
  guardErr (p.expirySeconds ≤ 0) .invalidCreate "CREATE requires positive expiry duration" event.id
  let mode := createMode p
  let sliceCount ← slicePolicyGate event p mode
  let (initiatorRole, seats) := createSeats event p
  guardErr (p.trancheChild.any fun child => event.pubkey ≠ child.coordinatorPubkey)
    .invalidTrancheCoordinator "Only the frozen plan coordinator may create tranche children"
    event.id
  let arbiter ← shareArbiter event p seats.arbiter
  let listingExpiresAt := event.timestamp + p.expirySeconds
  let paymentMethods ← js (normalizePaymentMethods p.paymentMethods)
  return {
    id := event.escrowId
    description := (truthyKey p.title).getD p.description
    category := p.category
    chamaPolicy := p.chamaPolicy.policy
    chamaCircle := createCircle event p
    paymentMethods
    items := p.items.map fun items => items.map cloneMenuItem
    community := p.community
    tranche := p.tranche
    escrowMode := mode
    onchainNetwork := p.onchainNetwork.getD .mainnet
    onchainAtomicRelease := p.onchainAtomicRelease
    settlementPolicy := statedPolicy p.settlementPolicy mode
    sliceCount
    mintUrl := p.mintUrl
    stock := p.stock
    parent := p.parent
    claimedQuantity := p.claimedQuantity
    trancheChild := p.trancheChild
    initiator := ⟨event.pubkey, initiatorRole⟩
    createdAt := event.timestamp
    status := .created
    amountMsats := p.amountMsats
    escrowKeys :=
      (⟨none, none, none⟩ : PerRole (Option String)).set initiatorRole
        ((truthyKey p.escrowXonly).map toLowerCase)
    onchainFundingTerms := none
    onchainRefundClaimed := false
    onchainPayoutTxid := none
    onchainPayoutAddress := none
    onchainPayoutSats := none
    settlementStalled := none
    tranchePlan := none
    childKeys := ⟨none, none, none⟩
    participants := { seats with arbiter }
    joinHolds := ⟨none, none, none⟩
    communityArbiters := p.communityArbiters.orFalsy (.arr [])
    bondedArbiters := p.bondedArbiters.orFalsy (.arr [])
    subscription := none
    votes := .empty
    resolvedOutcome := none
    resolvedMajority := none
    actingArbiter := none
    fees := {
      platformBps := p.platformFeeBps
      platformPubkey := p.platformFeePubkey
      platformMsats := .num ((p.amountMsats * p.platformFeeBps).divBy 10000).floor
      arbiterMsats := sanitizeArbiterFeeMsats p.arbiterFeeMsats p.amountMsats }
    lock := {}
    claim := {}
    listingExpiresAt := some listingExpiresAt
    tradeTimeoutSeconds := some p.expirySeconds
    expiresAt := listingExpiresAt
    resolvedAt := none
    completedAt := none
    cancelledAt := none
    eventChain := [event]
    chatMessages := []
    premiumNotes := []
    settlements := [] }

/-! ### PLAN_START and CHILD_KEY -/

def planArbiterGate (state : EscrowState) (event : ParsedEscrowEvent) (p : PlanStartPayload) :
    Step Unit :=
  match truthyKey state.participants.arbiter with
  | some seated => guardErr (seated ≠ p.arbiterPubkey) .planParticipantMismatch
      "Plan arbiter must match the seated parent arbiter" event.id
  | none => do
    let exclude := [some p.buyerPubkey, some p.sellerPubkey]
    let preferred ← js (pickPreferredArbiter state.communityArbiters state.bondedArbiters state.id
      exclude)
    let legacy ← js (pickArbiterFromPool state.communityArbiters state.id exclude)
    guardErr (p.arbiterPubkey ∉ [preferred, legacy].filterMap truthyKey) .planArbiterNotAssigned
      "Plan arbiter must be the deterministic pool assignment" event.id

/-- `handlePlanStart` on a parent without a plan. -/
def startPlan (state : EscrowState) (event : ParsedEscrowEvent) (p : PlanStartPayload) :
    Step EscrowState := do
  guardNone (validatePlanStart p) .invalidPlanStart event.id
  guardErr (event.pubkey ≠ state.initiator.pubkey ∨ event.pubkey ≠ p.coordinatorPubkey)
    .invalidPlanCoordinator "Plan start must be signed by the parent initiator" event.id
  guardErr (state.participants.buyer ≠ some p.buyerPubkey
      ∨ state.participants.seller ≠ some p.sellerPubkey) .planParticipantMismatch
    "Plan buyer and seller must match the seated parent participants" event.id
  planArbiterGate state event p
  guardErr (!p.totalMsats.strictEq state.amountMsats) .planAmountMismatch
    "Plan total must equal parent amount" event.id
  guardErr (state.sliceCount.any fun count =>
      !(p.settlementPolicy.any fun policy => state.settlementPolicy.isText policy)
        || !(p.sliceCount.any fun n => n.strictEq count)) .planPolicyMismatch
    "Plan policy and slice count must match the signed parent CREATE" event.id
  let next ← js (cloneState state)
  -- The parent is a manifest from here on, without a deadline of its own.
  return { next with
    participants := { next.participants with arbiter := some p.arbiterPubkey }
    tranchePlan := some { p with eventId := event.id }
    expiresAt := neverExpires
    eventChain := next.push event }

def handlePlanStart (state : EscrowState) (event : ParsedEscrowEvent) (p : PlanStartPayload) :
    Step EscrowState := do
  guardErr (state.chamaCircle.isSome ∨ state.trancheChild.isSome ∨ (truthyKey state.parent).isSome)
    .planOnChild "A tranche child cannot start a plan" event.id
  match state.tranchePlan with
  | none => startPlan state event p
  | some plan => do
    guardErr (plan.eventId ≠ event.id) .planAlreadyStarted
      "Parent already has a frozen tranche plan" event.id
    return state

def handleChildKey (state : EscrowState) (event : ParsedEscrowEvent) (p : ChildKeyPayload) :
    Step EscrowState :=
  match state.trancheChild with
  | none => .error (.reject ⟨.keyOnNonChild, "Child keys are accepted only on tranche children",
      event.id⟩)
  | some tranche => do
    guardErr (p.parent ≠ tranche.parent ∨ p.planId ≠ tranche.planId
        ∨ !p.index.strictEq tranche.index) .childKeyPlanMismatch
      "Child key does not match this tranche" event.id
    guardErr (p.bitcoinNetwork ≠ tranche.bitcoinNetwork) .childKeyNetworkMismatch
      "Child key uses the wrong Bitcoin network" event.id
    guardErr (state.participants.get p.role ≠ some event.pubkey) .unauthorizedChildKey
      "Key signer does not hold the declared frozen role" event.id
    guardErr ((state.childKeys.get p.role).any fun key => key ≠ p.xOnlyPubkey) .childKeyAlreadySet
      "A frozen role cannot replace its child key" event.id
    let next ← js (cloneState state)
    return { next with
      childKeys := next.childKeys.set p.role (some p.xOnlyPubkey)
      eventChain := next.push event }

/-! ### JOIN -/

def isSet (n : Option JsNumber) : Bool := n.any fun n => (JsValue.num n).truthy

def hasJoinOrderPayload (p : JoinPayload) : Bool :=
  (p.selectedItems.any fun items => !items.isEmpty) || (p.amountMsats.any fun a => 0 < a)
    || p.orderFinalizedAt.isSome

def inferLegacyInitialOrderFinalizedAt (p : JoinPayload) (hasHold : Bool) : Option JsNumber :=
  match p.orderFinalizedAt with
  | some t => some t
  | none =>
    if hasHold then none
    else
      match p.selectedItems with
      | none | some [] => none
      | some items =>
        let total := selectedItemsTotalMsats items
        if total ≤ 0 ∨ !(p.amountMsats.any fun a => a.strictEq total) then none
        else some p.joinedAt

/-- The hold a JOIN leaves on a seat; `existing` is the one it amends. -/
def joinHold (state : EscrowState) (event : ParsedEscrowEvent) (p : JoinPayload)
    (existing : Option JoinHold) : JoinHold where
  role := p.role
  pubkey := event.pubkey
  joinedAt := (existing.map JoinHold.joinedAt).getD p.joinedAt
  expiresAt := (existing.map JoinHold.expiresAt).getD
    (p.holdExpiresAt.getD (joinHoldExpiresAtFor p.joinedAt state.escrowMode))
  eventId := event.id
  selectedItems := (p.selectedItems.filter fun items => !items.isEmpty).map fun items =>
    items.map cloneSelectedMenuItem
  amountMsats := p.amountMsats.filter fun a => 0 < a
  orderFinalizedAt := inferLegacyInitialOrderFinalizedAt p existing.isSome

def joinFundingTerms (state : EscrowState) (event : ParsedEscrowEvent) (p : JoinPayload)
    (terms : OnchainFundingTerms) : Step EscrowState := do
  guardErr state.onchainFundingTerms.isSome .fundingTermsFrozen
    "Funding terms cannot be replaced" event.id
  guardErr (p.role ≠ onchainFunder state
      ∨ getEffectiveParticipantAt state (onchainFunder state) event.timestamp ≠ some event.pubkey)
    .invalidFundingTerms "Only the seated funder may publish funding terms" event.id
  guardNone (fundingTermsError host state terms event.timestamp) .invalidFundingTerms event.id
  let next ← js (cloneState state)
  let arbiter ← js (fundingArbiter state)
  return { next with
    onchainFundingTerms := some terms
    participants := { next.participants with arbiter }
    tradeTimeoutSeconds := some (tradeTimeoutSecondsFor state)
    listingExpiresAt := some (state.listingExpiresAt.getD state.expiresAt)
    expiresAt := neverExpires
    eventChain := next.push event }

/-- A JOIN by the key that already holds the seat: a relay echo, unless it brings an order. -/
def joinAgain (state : EscrowState) (event : ParsedEscrowEvent) (p : JoinPayload) :
    Step EscrowState := do
  guardErr (!(roleUsesJoinHold p.role state.initiator.role && hasJoinOrderPayload p))
    .alreadyJoined "Pubkey is already a participant in this role" event.id
  let next ← js (cloneState state)
  let existing := next.joinHolds.get p.role
  guardErr (isSet (existing.bind JoinHold.orderFinalizedAt)) .orderAlreadyFinalized
    "This order has already been finalized and can no longer be changed" event.id
  return { next with
    joinHolds := next.joinHolds.set p.role (some (joinHold state event p existing))
    eventChain := next.push event }

/-- `pool.length === 0 || pool.includes(pubkey)`. -/
def poolAdmits (pool : JsValue) (pubkey : String) : Except JsError Bool := do
  if ← pool.hasLength then pool.includes pubkey else return true

def joinArbiterGate (state : EscrowState) (event : ParsedEscrowEvent) : Step Unit := do
  let empty ← js state.communityArbiters.lengthIsZero
  guardErr ((truthyKey state.community).isSome ∧ empty
      ∨ usesMoneyPathHardening state.createdAt ∧ empty) .arbiterPoolEmpty
    "This community trade has no trusted arbiter pool" event.id
  guardErr (!(← js (poolAdmits state.communityArbiters event.pubkey))) .arbiterNotInPool
    "Arbiter pubkey is not in this trade's communityArbiters pool" event.id
  let exclude := [state.participants.buyer, state.participants.seller]
  let legacy ← js (pickArbiterFromPool state.communityArbiters state.id exclude)
  let preferred ← js (pickPreferredArbiter state.communityArbiters state.bondedArbiters state.id
    exclude)
  let accepted := [preferred, legacy].filterMap truthyKey
  guardErr (!accepted.isEmpty ∧ event.pubkey ∉ accepted) .arbiterNotAssigned
    "Only the deterministically-assigned arbiter (bonded-preferred or legacy pick) may join this trade; backups step in by voting after the grace window"
    event.id

def joinRoleGate (state : EscrowState) (event : ParsedEscrowEvent) (p : JoinPayload) : Step Unit :=
  if p.role = .arbiter then joinArbiterGate state event else .ok ()

def joinSeat (state : EscrowState) (event : ParsedEscrowEvent) (p : JoinPayload) :
    Step EscrowState := do
  joinRoleGate state event p
  let next ← js (cloneState state)
  let timed := roleUsesJoinHold p.role state.initiator.role
  let paid := p.role = .arbiter ∧ !p.arbiterFeeMsats.isUndefined
  return { next with
    participants := next.participants.set p.role (some event.pubkey)
    escrowKeys := next.escrowKeys.set p.role ((truthyKey p.escrowXonly).map toLowerCase)
    joinHolds := next.joinHolds.set p.role
      (if timed then some (joinHold state event p none) else none)
    fees :=
      if paid then
        { next.fees with
          arbiterMsats := sanitizeArbiterFeeMsats p.arbiterFeeMsats state.amountMsats }
      else next.fees
    eventChain := next.push event }

def handleJoin (state : EscrowState) (event : ParsedEscrowEvent) (p : JoinPayload) :
    Step EscrowState := do
  guardErr state.chamaCircle.isSome .chamaSeatsFixed
    "Circle seats are established by share CREATE" event.id
  guardErr (state.status ≠ .created) .invalidState s!"Cannot JOIN in state {state.status}" event.id
  match p.fundingTerms with
  | some terms => joinFundingTerms host state event p terms
  | none => do
    guardErr state.onchainFundingTerms.isSome .fundingTermsFrozen
      "Funding seats and keys cannot change" event.id
    guardErr (p.role = state.initiator.role) .roleConflict
      s!"Cannot join as {p.role} — that's the initiator's role" event.id
    let occupant := getEffectiveParticipantAt state p.role event.timestamp
    if occupant = some event.pubkey then joinAgain state event p
    else do
      guardErr occupant.isSome .roleTaken s!"Role {p.role} is already filled" event.id
      guardNone ((getActiveRole state event.pubkey event.timestamp).map fun role =>
        s!"Pubkey is already the {role}; cannot join as {p.role}") .alreadyJoined event.id
      joinSeat state event p

/-! ### SUBSCRIBE and CANCEL -/

/-- `Array(n)`, defined on the 32-bit lengths alone. -/
def arrayLength (n : JsNumber) : Except JsError ℕ :=
  match n.toNat? with
  | some length =>
    if length < 2 ^ 32 then .ok length else .error (.rangeError "Invalid array length")
  | none => .error (.rangeError "Invalid array length")

def handleSubscribe (state : EscrowState) (event : ParsedEscrowEvent) (p : SubscribePayload) :
    Step EscrowState := do
  guardErr state.chamaCircle.isSome .chamaNoSubscription "Circles cannot subscribe" event.id
  guardErr (state.status ≠ .created) .invalidState s!"Cannot SUBSCRIBE in state {state.status}"
    event.id
  guardErr (getRole state event.pubkey).isNone .notParticipant
    "Only participants can add subscription terms" event.id
  guardErr state.subscription.isSome .alreadySubscribed "Subscription terms already set" event.id
  let total := p.totalPeriods * p.periodAmountMsats
  guardErr (!total.strictEq state.amountMsats) .amountMismatch
    s!"Subscription total ({p.totalPeriods} × {p.periodAmountMsats} = {total}) doesn't match escrow amount ({state.amountMsats})"
    event.id
  let next ← js (cloneState state)
  let periods ← js (arrayLength p.totalPeriods)
  return { next with
    subscription := some {
      totalPeriods := p.totalPeriods
      periodAmountMsats := p.periodAmountMsats
      periodDurationSeconds := p.periodDurationSeconds
      periodStartTimes := (List.range periods).map fun i =>
        p.startsAt + .ofInt i * p.periodDurationSeconds
      periodStatuses := ⟨List.replicate periods .pending, []⟩
      releasedCount := 0
      totalReleasedMsats := 0
      startsAt := p.startsAt }
    eventChain := next.push event }

def handleCancel (state : EscrowState) (event : ParsedEscrowEvent) (p : CancelPayload) :
    Step EscrowState := do
  guardErr state.onchainFundingTerms.isSome .fundingTermsFrozen
    "Use the on-chain refund after its deadline" event.id
  guardErr (state.status ≠ .created) .invalidState
    s!"Cannot CANCEL in state {state.status} — sats may be locked" event.id
  guardErr (event.pubkey ≠ state.initiator.pubkey) .notInitiator
    "Only the trade initiator can cancel" event.id
  let next ← js (cloneState state)
  return { next with
    status := .cancelled
    cancelledAt := some p.cancelledAt
    eventChain := next.push event }

end ChamaEscrow
