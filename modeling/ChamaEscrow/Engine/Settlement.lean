import ChamaEscrow.Engine.Circles
import ChamaEscrow.Engine.Onchain
import ChamaEscrow.Engine.Seats
import ChamaEscrow.Engine.Custody

/-!
# Handlers after custody

The reducer's handlers for the events that settle a funded trade (`state-machine.ts`): VOTE,
RESOLVE, CLAIM, SETTLEMENT_STALLED, COMPLETE and PERIOD_RELEASE, and for the auxiliary ones that
ride along: CHAT, PREMIUM and SETTLEMENT.
-/

namespace ChamaEscrow

open Js Library

variable (host : Host)

/-! ### The vote threshold -/

/-- What `checkVoteThreshold` finds. -/
structure Threshold where
  outcome : Outcome
  majority : List Role

def votersFor (votes : Votes) (outcome : Outcome) : List Role :=
  (votes.entries.filter fun vote => vote.2 = outcome).map Prod.fst

/-- `checkVoteThreshold`: the outcome that two roles agree on. -/
def checkVoteThreshold (votes : Votes) : Option Threshold :=
  if 2 ≤ (votersFor votes .release).length then
    some ⟨.release, (votersFor votes .release).take 2⟩
  else if 2 ≤ (votersFor votes .refund).length then
    some ⟨.refund, (votersFor votes .refund).take 2⟩
  else none

/-! ### VOTE -/

def votePayoutError (state : EscrowState) (event : ParsedEscrowEvent) (p : VotePayload) :
    Option String :=
  match atomicReleaseError host state event.raw p with
  | .ok problem => problem
  | .error _ => some "Invalid vote-carried payout"

def validateVoteShareEnvelope (env : VoteShareEnvelope) (state : EscrowState) (voterRole : Role)
    (outcome : Outcome) (lockNotesHash : JsValue) : Option String :=
  if !env.shareIndex.strictEq (shareIndexForRole voterRole) then
    some s!"shareIndex {env.shareIndex} is not the {voterRole}'s holder index {shareIndexForRole voterRole}"
  else if env.outcome ≠ outcome then
    some s!"share outcome {env.outcome} disagrees with the vote outcome {outcome}"
  else if lockNotesHash.truthy && !lockNotesHash.isText env.notesHash then
    some "share notesHash does not match the locked token"
  else
    match payoutRecipientFor state outcome with
    | none => some "no engine recipient for this outcome"
    | some (recipient, _) =>
      if env.recipientPubkey ≠ recipient then
        some "share recipient is not the engine-computed payout recipient"
      else if !env.encryptedFor.truthy ∨ (env.encryptedFor.member recipient).isUndefined then
        some "share is not encrypted to the recipient"
      else none

def isPrincipalKey (state : EscrowState) (pubkey : String) : Bool :=
  some pubkey = state.participants.buyer || some pubkey = state.participants.seller

/-- How a vote's author stands to the circle law. -/
def voteJudgment (state : EscrowState) (event : ParsedEscrowEvent) : OutcomeJudgment :=
  if isPrincipalKey state event.pubkey then .observePrincipal else .observeArbiter

def holdsBackShares (state : EscrowState) : Bool :=
  state.lock.withheld.any fun withheld => (truthyKey withheld.releaseEventId).isNone

/-- The clock of the arbiter's vote in a dispute that is not over its deadline.  An agreement of the
principals leaves nothing to rule on; a lone vote opens the floor at `opensAt`. -/
def arbiterFloorGate (state : EscrowState) (event : ParsedEscrowEvent)
    (lone : Option JsNumber → Bool) : Step Unit :=
  match state.votes.get .buyer, state.votes.get .seller with
  | some buyerVote, some sellerVote =>
    guardErr (buyerVote = sellerVote) .arbiterNotNeeded
      "Arbiter vote not needed — buyer and seller agree" event.id
  | _, _ => guardErr (!lone (oneSidedEscalationAt state)) .arbiterTooEarly
      "Arbiter can only vote after both buyer and seller have voted" event.id

/-- What lets a key without a seat cast the arbiter's vote: a pooled LOCK, a place in the priority
order, and the grace window of the assigned arbiter behind it.  Past the deadline a backup may act
at once, with a REFUND, or on the merits of a contest. -/
def substituteGate (state : EscrowState) (event : ParsedEscrowEvent) (p : VotePayload) :
    Step Unit := do
  guardErr (p.role ≠ .arbiter ∨ state.lock.arbiterPoolShare ≠ some true) .notParticipant
    "Voter is not a participant" event.id
  guardErr (← js (arbiterVotePriority state event.pubkey)).isNone .notPoolArbiter
    "Voter is not in this escrow's arbiter priority order" event.id
  if state.status = .expired then
    guardErr (!isPerformanceContest state event.timestamp ∧ p.outcome ≠ .refund)
      .invalidHealOutcome "Healing votes on an expired trade must be REFUND" event.id
  else do
    arbiterFloorGate state event Option.isSome
    let eligibleAt := substitutionEligibleAt state
    let shownAt := (eligibleAt.map toString).getD "?"
    guardErr (eligibleAt.all fun at_ => event.timestamp < at_) .substituteTooEarly
      s!"Backup arbiter becomes eligible at {shownAt} — the assigned arbiter still has the floor"
      event.id

def arbiterVoteGate (state : EscrowState) (event : ParsedEscrowEvent) (role : Role) : Step Unit :=
  if role = .arbiter ∧ state.status ≠ .expired then
    arbiterFloorGate state event fun opensAt => opensAt.any fun at_ => !(event.timestamp < at_)
  else .ok ()

def voteEnvelopeError (state : EscrowState) (p : VotePayload) (role : Role) : Option String :=
  (p.shareEnvelope.bind fun env =>
    validateVoteShareEnvelope env state role p.outcome state.lock.notesHash).map fun reason =>
      s!"Vote share envelope invalid: {reason}"

def voterRole (state : EscrowState) (event : ParsedEscrowEvent) (p : VotePayload) : Step Role :=
  match getRole state event.pubkey with
  | some role => .ok role
  | none => do
    substituteGate state event p
    return .arbiter

structure ArbiterVote where
  priority : ℕ
  outcome : Outcome
  pubkey : String

def bestArbiterVote (state : EscrowState) :
    List (ParsedEscrowEvent × VotePayload) → Option ArbiterVote →
        Except JsError (Option ArbiterVote)
  | [], best => .ok best
  | (e, p) :: rest, best =>
    if p.role ≠ .arbiter then bestArbiterVote state rest best
    else do
      match ← arbiterVotePriority state e.pubkey with
      | none => bestArbiterVote state rest best
      | some priority =>
        if best.all fun b => priority < b.priority then
          bestArbiterVote state rest (some ⟨priority, p.outcome, e.pubkey⟩)
        else bestArbiterVote state rest best

/-- The copy of the state with the vote in its chain, and the payout it carries among the
settlements. -/
def recordVote (next : EscrowState) (event : ParsedEscrowEvent) (p : VotePayload) : EscrowState :=
  { next with
    settlements := next.settlements ++ (voteSettlement event.raw p).toList
    eventChain := next.push event }

/-- The state with the vote counted.  On a pooled LOCK the arbiter's slot is derived from all
arbiter votes of the chain, so that it does not depend on the order in which they came. -/
def countVote (state next : EscrowState) (event : ParsedEscrowEvent) (p : VotePayload)
    (role : Role) : Except JsError EscrowState :=
  if role = .arbiter ∧ state.lock.arbiterPoolShare = some true then do
    match ← bestArbiterVote next (voteEvents next.eventChain) none with
    | none => return next
    | some best => return { next with
        votes := next.votes.set .arbiter best.outcome
        actingArbiter := some best.pubkey }
  else return { next with
    votes := next.votes.set role p.outcome
    actingArbiter := if role = .arbiter then some event.pubkey else next.actingArbiter }

def handleVote (state : EscrowState) (event : ParsedEscrowEvent) (p : VotePayload) :
    Step EscrowState := do
  guardNone (votePayoutError host state event p) .invalidSettlementProof event.id
  guardNone (chamaOutcomeError host state p.outcome event.timestamp event.chamaCycle
    (voteJudgment state event) p.fillEvidence) .chamaRefundOnly event.id
  guardErr (holdsBackShares state) .sharesNotReleased "The funder has not released the shares yet"
    event.id
  guardErr (state.status ≠ .locked ∧ state.status ≠ .expired) .invalidState
    s!"Cannot VOTE in state {state.status}" event.id
  let role ← voterRole state event p
  guardErr (role ≠ p.role) .roleMismatch
    s!"Signer has role {role} but event claims {p.role}" event.id
  guardErr (state.eventChain.any fun e => e.kind = .vote && e.pubkey = event.pubkey) .alreadyVoted
    s!"{role} has already voted" event.id
  arbiterVoteGate state event role
  guardNone (voteEnvelopeError state p role) .invalidShareEnvelope event.id
  let next ← js (cloneState state)
  js (countVote state (recordVote next event p) event p role)

/-! ### RESOLVE and CLAIM -/

def sameMajority (claimed : List (Option Role)) (actual : List Role) : Bool :=
  claimed.dedup.length = actual.dedup.length && claimed.all fun r => r.any fun r => r ∈ actual

def resolveError (votes : Votes) (p : ResolvePayload) : Option (ErrorCode × String) :=
  match checkVoteThreshold votes with
  | none => some (.thresholdNotMet, "Cannot resolve — 2-of-3 vote threshold not met")
  | some threshold =>
    if threshold.outcome ≠ p.outcome then
      some (.outcomeMismatch,
        s!"Event claims {p.outcome} but votes resolve to {threshold.outcome}")
    else if !sameMajority p.majority threshold.majority then
      some (.majorityMismatch, "Claimed majority doesn't match actual vote majority")
    else none

def handleResolve (state : EscrowState) (event : ParsedEscrowEvent) (p : ResolvePayload) :
    Step EscrowState := do
  guardNone (chamaOutcomeError host state p.outcome event.timestamp event.chamaCycle .finalize
    p.fillEvidence) .chamaRefundOnly event.id
  guardErr (state.status ≠ .locked ∧ state.status ≠ .expired) .invalidState
    s!"Cannot RESOLVE in state {state.status}" event.id
  guardProblem (resolveError state.votes p) event.id
  let next ← js (cloneState state)
  return { next with
    status := .approved
    resolvedOutcome := some p.outcome
    resolvedMajority := some (p.majority.filterMap id)
    resolvedAt := some p.resolvedAt
    eventChain := next.push event }

def handleClaim (state : EscrowState) (event : ParsedEscrowEvent) (p : ClaimPayload) :
    Step EscrowState := do
  guardErr (state.status ≠ .approved) .invalidState s!"Cannot CLAIM in state {state.status}"
    event.id
  match state.resolvedOutcome, getWinner state with
  | none, _ => .error (.reject ⟨.noOutcome, "Cannot claim — no resolved outcome", event.id⟩)
  | some _, none => .error (.reject ⟨.noWinner, "Cannot determine winner", event.id⟩)
  | some outcome, some (_, winnerRole) => do
    guardErr (getRole state event.pubkey ≠ some winnerRole) .wrongClaimer
      s!"Only {winnerRole} can claim on {outcome} outcome" event.id
    guardErr (state.lock.notesHash.truthy ∧ !state.lock.notesHash.isText p.notesHashVerification)
      .notesHashMismatch "Reconstructed notes hash doesn't match locked notes hash" event.id
    let next ← js (cloneState state)
    return { next with
      status := .claimed
      claim := ⟨getRole state event.pubkey, some p.claimedAt⟩
      eventChain := next.push event }

/-! ### On-chain payouts -/

/-- Whether a stalled request is due, comes from the winner, names the winner's proposal, and keeps
the agreed winner and destination. -/
def stalledRequestError (eligible : Option StalledEligibility) (event : ParsedEscrowEvent)
    (p : SettlementStalledPayload) : Option String :=
  match eligible with
  | none => some
      "Only the winner can request a stalled payout after 24 hours without a counter-signature."
  | some e =>
    if !e.ready ∨ event.pubkey ≠ e.winner ∨ p.proposalId ≠ e.choice.proposal.raw.id then some
      "Only the winner can request a stalled payout after 24 hours without a counter-signature."
    else if p.payout.role ≠ e.winnerRole ∨ p.payout.leaf ≠ .arbiter ∨ p.payout.final = some true
        ∨ !p.payout.payoutAddress.strictEq e.choice.destination then
      some "The request must preserve the agreed winner and destination."
    else none

def recordStalled (next : EscrowState) (event : ParsedEscrowEvent) (p : SettlementStalledPayload)
    (destination : JsValue) : EscrowState :=
  { next with
    settlementStalled := some ⟨event.timestamp, p.proposalId, destination⟩
    settlements := next.settlements ++ [⟨event.raw, p.payout⟩] }

def handleSettlementStalled (state : EscrowState) (event : ParsedEscrowEvent)
    (p : SettlementStalledPayload) : Step EscrowState := do
  let eligible ← js (stalledPayoutEligibility host state event.timestamp)
  guardNone (stalledRequestError eligible event p) .invalidSettlementProof event.id
  let copy ← js (cloneState state)
  let destination := (eligible.map fun e => e.choice.destination).getD .undefined
  let next := recordStalled copy event p destination
  let choice ← js (winnerSettlementChoice host next)
  guardErr (choice.all fun c => c.proposal.raw.id ≠ event.id) .invalidSettlementProof
    "Invalid dispute payout transaction." event.id
  return { next with eventChain := next.push event }

def linkedSettlement (state : EscrowState) (event : ParsedEscrowEvent) :
    Option SettlementMessage :=
  let settlementId := (event.raw.tags.find? fun tag => tag.head? = some "settlement").bind
    fun tag => tag[1]?
  state.settlements.find? fun m => some m.raw.id = settlementId

/-- The payout proof of an on-chain COMPLETE, when its sender may publish it: the winner with the
other principal, or with the arbiter where the arbiter's signature was required. -/
def payoutProofFor (state : EscrowState) (event : ParsedEscrowEvent) (terms : OnchainLockTerms) :
    Option SettlementProof :=
  match linkedSettlement state event, getWinner state with
  | some message, some (winner, winnerRole) =>
    if !winnerRole.isPrincipal then none
    else if isArbitrated state then
      (finalArbiterSettlementProof host message terms winnerRole state.settlements winner).filter
        fun _ => some event.pubkey = state.participants.get winnerRole
          || some event.pubkey = state.participants.arbiter
    else
      (finalCoopSettlementProof host message terms winnerRole state.settlements winner).filter
        fun _ => isPrincipalKey state event.pubkey
  | _, _ => none

/-- The COMPLETE of a funder's own refund.  It is a marker: only the chain says when the refund is
spent, so voting goes on. -/
def claimRefund (state : EscrowState) (event : ParsedEscrowEvent) (refund : SettlementMessage) :
    Step EscrowState := do
  guardErr (!state.onchainFundingTerms.any fun terms =>
      some event.pubkey = state.participants.get (onchainFunder state)
        && finalRefundSettlementProof host refund terms) .invalidSettlementProof
    "Invalid funder refund proof" event.id
  let next ← js (cloneState state)
  return { next with
    onchainRefundClaimed := true
    eventChain := next.push event }

def completeTrade (state : EscrowState) (event : ParsedEscrowEvent) (p : CompletePayload) :
    Step EscrowState := do
  guardErr (state.status ≠ .claimed ∧ ¬ (state.status = .approved ∧ state.lock.onchain.isSome))
    .invalidState s!"Cannot COMPLETE in state {state.status}" event.id
  let proof := state.lock.onchain.bind (payoutProofFor host state event)
  guardErr (state.lock.onchain.isSome ∧ proof.isNone) .invalidSettlementProof
    "On-chain COMPLETE must link a fully signed settlement for this escrow" event.id
  let next ← js (cloneState state)
  return { next with
    status := .completed
    completedAt := some p.completedAt
    onchainPayoutTxid := (proof.map SettlementProof.txid).or next.onchainPayoutTxid
    onchainPayoutAddress := (proof.map SettlementProof.destination).or next.onchainPayoutAddress
    onchainPayoutSats := (proof.map SettlementProof.sats).or next.onchainPayoutSats
    eventChain := next.push event }

def linkedRefund (state : EscrowState) (event : ParsedEscrowEvent) : Option SettlementMessage :=
  (linkedSettlement state event).filter fun m => m.payload.leaf = .refund

def handleComplete (state : EscrowState) (event : ParsedEscrowEvent) (p : CompletePayload) :
    Step EscrowState :=
  match linkedRefund state event with
  | some refund => claimRefund host state event refund
  | none => completeTrade host state event p

/-! ### PERIOD_RELEASE -/

def SubscriptionMeta.release (sub : SubscriptionMeta) (p : PeriodReleasePayload) :
    SubscriptionMeta :=
  { sub with
    periodStatuses := sub.periodStatuses.setAt p.periodIndex .released
    releasedCount := sub.releasedCount + 1
    totalReleasedMsats := sub.totalReleasedMsats + p.amountMsats }

def periodError (sub : SubscriptionMeta) (p : PeriodReleasePayload) :
    Option (ErrorCode × String) :=
  if p.periodIndex < 0 ∨ sub.totalPeriods ≤ p.periodIndex then
    some (.invalidPeriod, s!"Period {p.periodIndex} out of range (0-{sub.totalPeriods - 1})")
  else
    match sub.periodStatuses.at? p.periodIndex with
    | some .released => some (.alreadyReleased, s!"Period {p.periodIndex} already released")
    | some .disputed => some (.periodDisputed,
        s!"Period {p.periodIndex} is disputed — resolve via voting")
    | _ => none

def handlePeriodRelease (state : EscrowState) (event : ParsedEscrowEvent)
    (p : PeriodReleasePayload) : Step EscrowState := do
  guardErr (state.status ≠ .locked) .invalidState s!"Cannot release period in state {state.status}"
    event.id
  match state.subscription with
  | none => .error (.reject ⟨.notSubscription, "This escrow is not a subscription", event.id⟩)
  | some sub => do
    guardProblem (periodError sub p) event.id
    guardErr (getRole state event.pubkey).isNone .notParticipant
      "Only participants can release periods" event.id
    guardErr (!p.amountMsats.strictEq sub.periodAmountMsats) .amountMismatch
      s!"Release amount {p.amountMsats} doesn't match period amount {sub.periodAmountMsats}" event.id
    let next ← js (cloneState state)
    let released := sub.copy.release p
    let done := sub.totalPeriods ≤ .ofInt released.releasedCount
    return { next with
      subscription := some released
      status := if done then .completed else next.status
      completedAt := if done then some p.releasedAt else next.completedAt
      eventChain := next.push event }

/-! ### Auxiliary events -/

def handleChat (state : EscrowState) (event : ParsedEscrowEvent) : Step EscrowState := do
  guardErr (getActiveRole state event.pubkey event.timestamp).isNone .notParticipant
    "Only participants can send chat messages" event.id
  guardErr state.status.isTerminal .tradeClosed "Cannot chat — trade is in terminal state" event.id
  let next ← js (cloneState state)
  return { next with chatMessages := next.chatMessages ++ [event] }

def handlePremium (state : EscrowState) (event : ParsedEscrowEvent) : Step EscrowState :=
  if state.premiumNotes.any fun e => e.id = event.id then .ok state
  else do
    guardErr (!isPrincipalKey state event.pubkey) .notParticipant
      "Only trade principals can send an arbiter premium" event.id
    let next ← js (cloneState state)
    return { next with premiumNotes := next.premiumNotes ++ [event] }

def handleSettlement (state : EscrowState) (event : ParsedEscrowEvent) (p : SettlementPayload) :
    Step EscrowState :=
  if state.settlements.any fun m => m.raw.id = event.id then .ok state
  else do
    guardErr (getRole state event.pubkey ≠ some p.role) .notParticipant
      "Settlement sender must be the named participant for its role" event.id
    let next ← js (cloneState state)
    return { next with settlements := next.settlements ++ [⟨event.raw, p⟩] }

end ChamaEscrow
