import ChamaEscrow.Engine.Settlement
import ChamaEscrow.Library.Machine

/-!
# The state machine

`applyEvent` (`state-machine.ts`): the gauntlet every event runs before its handler, and the
dispatch.  An event that comes after the deadline meets `expiryGate`, which may refuse it, end the
step with the trade expired, or hand an expired copy of the state to the handler.

`applyToState` is the part that takes an existing state to the next one; the states of its runs from
an accepted CREATE are the reachable states of a trade (`Reached`).
-/

namespace ChamaEscrow

open Js Library

variable (host : Host)

/-! ### The gauntlet -/

def outcomeLaw (state : EscrowState) (event : ParsedEscrowEvent) : Option String :=
  match event.payload with
  | .vote p => chamaOutcomeError host state p.outcome event.timestamp event.chamaCycle
      (voteJudgment state event) p.fillEvidence
  | .resolve p => chamaOutcomeError host state p.outcome event.timestamp event.chamaCycle .finalize
      p.fillEvidence
  | _ => none

/-- `mayCarryPastExpiry`: a seated party, or a backup arbiter in the pooled-share order. -/
def mayCarryPastExpiry (state : EscrowState) (pubkey : String) : Except JsError Bool :=
  if (getRole state pubkey).isSome then .ok true
  else if state.lock.arbiterPoolShare = some true then do
    return (← arbiterVotePriority state pubkey).isSome
  else .ok false

def isPastDeadline (state : EscrowState) (event : ParsedEscrowEvent) : Bool :=
  !(event.kind = .complete && state.onchainFundingTerms.isSome)
    && !(state.tranche.truthy && (event.kind = .lock || event.kind = .childKey))
    && state.expiresAt < event.timestamp && state.status ≠ .approved && state.status ≠ .claimed

/-- Whether the December rules ask of an event's author a place in the trade. -/
def asksForAPlace (state : EscrowState) : Bool :=
  state.status ≠ .expired && state.status ≠ .created && usesDecemberTradeRules state.createdAt

/-- What the deadline makes of an event: it goes on to its handler, or it only expires the trade. -/
inductive AtDeadline
  | dispatch (state : EscrowState)
  | expired (state : EscrowState)

def expire (state : EscrowState) : Except JsError EscrowState := do
  let next ← cloneState state
  return { next with status := .expired }

/-- Under the December rules only someone in the trade carries it past its deadline. -/
def placeGate (state : EscrowState) (event : ParsedEscrowEvent) : Step Unit :=
  if asksForAPlace state then do
    guardErr (!(← js (mayCarryPastExpiry state event.pubkey))) .expiryNotInTrade
      "Only someone in this trade can carry it past its deadline" event.id
  else .ok ()

/-- A state past its deadline: an expired one heals, a VOTE or a LOCK_STEP still reaches its
handler, and any other event only expires the trade. -/
def passDeadline (state : EscrowState) (event : ParsedEscrowEvent) : Step AtDeadline :=
  if state.status = .expired then .ok (.dispatch state)
  else do
    let next ← js (expire state)
    return if event.kind = .vote ∨ event.kind = .lockStep then .dispatch next else .expired next

/-- The expiry check of `applyEvent`. -/
def expiryGate (state : EscrowState) (event : ParsedEscrowEvent) : Step AtDeadline :=
  if isPastDeadline state event then do
    placeGate state event
    passDeadline state event
  else .ok (.dispatch state)

/-! ### Dispatch -/

def dispatch (state : EscrowState) (event : ParsedEscrowEvent) : Step EscrowState :=
  match event.payload with
  | .join p => handleJoin host state event p
  | .lock p => handleLock host state event p
  | .settlementStalled p => handleSettlementStalled host state event p
  | .vote p => handleVote host state event p
  | .resolve p => handleResolve host state event p
  | .claim p => handleClaim state event p
  | .complete p => handleComplete host state event p
  | .cancel p => handleCancel state event p
  | .chat _ => handleChat state event
  | .subscribe p => handleSubscribe state event p
  | .periodRelease p => handlePeriodRelease state event p
  | .planStart p => handlePlanStart state event p
  | .childKey p => handleChildKey state event p
  | .lockStep p => handleLockStep state event p
  -- These three never get here.
  | .create _ | .premium _ | .settlement _ =>
    .error (.reject ⟨.unknownEventKind, "Unknown event kind", event.id⟩)

def applyConsensus (state : EscrowState) (event : ParsedEscrowEvent) : Step EscrowState :=
  if state.hasEvent event.id then .ok state
  else do
    guardErr state.status.isTrulyTerminal .terminalState
      s!"Escrow is in terminal state {state.status} — no further events accepted" event.id
    match ← expiryGate state event with
    | .expired next => return next
    | .dispatch live => dispatch host live event

/-- `applyEvent` on an existing state. -/
def applyToState (state : EscrowState) (event : ParsedEscrowEvent) : Step EscrowState :=
  match event.payload with
  | .create _ => .error (.reject ⟨.duplicateCreate,
      "CREATE event received but escrow already exists", event.id⟩)
  | .premium _ => handlePremium state event
  | .settlement p => handleSettlement state event p
  | _ => do
    guardNone (outcomeLaw host state event) .chamaRefundOnly event.id
    applyConsensus host state event

def applyEvent (state : Option EscrowState) (event : ParsedEscrowEvent) : Step EscrowState :=
  match state, event.payload with
  | none, .create p => handleCreate host event p
  | none, _ => .error (.reject ⟨.noState, "Non-CREATE event received but no escrow state exists",
      event.id⟩)
  | some state, _ => applyToState host state event

variable {s : EscrowState}

variable {e : ParsedEscrowEvent}

theorem applyEvent_some {host : Host} : applyEvent host (some s) e = applyToState host s e := by
  unfold applyEvent
  cases e.payload <;> rfl

/-! ### Runs -/

def Created (s : EscrowState) : Prop := ∃ e, applyEvent host none e = .ok s

def RunsUnder (C : EscrowState → ParsedEscrowEvent → Prop) : EscrowState → Prop :=
  Run (applyToState host) (Created host) C

def Reached : EscrowState → Prop := Reachable (applyToState host) (Created host)

theorem applyEvent_none : applyEvent host none e = .ok s ↔
    ∃ p, e.payload = .create p ∧ handleCreate host e p = .ok s := by
  constructor
  · intro he
    unfold applyEvent at he
    split at he
    · exact ⟨_, by assumption, he⟩
    · cases he
    · contradiction
  · rintro ⟨p, hp, hs⟩
    unfold applyEvent
    rw [hp]
    exact hs

theorem created_iff :
    Created host s ↔ ∃ e p, e.payload = .create p ∧ handleCreate host e p = .ok s :=
  exists_congr fun _ => applyEvent_none host

/-- The reachable states are the states of the folds of `applyEvent` that keep the state when an
event is rejected. -/
theorem reached_iff_liveFold :
    Reached host s ↔ ∃ s₀ es, Created host s₀ ∧ s = liveFold (applyToState host) s₀ es :=
  reachable_iff_liveFold

def liveTrade (create : ParsedEscrowEvent) (es : List ParsedEscrowEvent) : Option EscrowState :=
  match applyEvent host none create with
  | .ok s => some (liveFold (applyToState host) s es)
  | .error _ => none

variable {es : List ParsedEscrowEvent} {create : ParsedEscrowEvent}

theorem liveTrade_run {C : EscrowState → ParsedEscrowEvent → Prop}
    (h : liveTrade host create es = some s) (hC : ∀ s, ∀ e ∈ es, C s e) : RunsUnder host C s := by
  unfold liveTrade at h
  split at h
  · rename_i s₀ hcreate
    rw [Option.some.injEq] at h
    exact h ▸ Run.fold (.start ⟨create, hcreate⟩) hC
  · cases h

theorem liveTrade_reached (h : liveTrade host create es = some s) : Reached host s :=
  liveTrade_run host h fun _ _ _ => trivial

end ChamaEscrow
