import ChamaEscrow.Client.VoteSlots
import ChamaEscrow.Js.Whole
import ChamaEscrow.Trade.Majority
import ChamaEscrow.Trade.Provenance

/-!
# What a client does by itself

`escrow-client.ts` votes for the refund of an expired trade (`maybeAutoRefundExpired`) and publishes
the RESOLVE of two votes that agree (`maybeAutoResolve`), without being asked.

The refund is published several awaits after its checks, on what the trade has become: a contest
that opens in between is not seen.  A late RESOLVE is harmless, as voters keep their places.
-/

namespace ChamaEscrow

open Js Library

variable {host : Host} {s s' : EscrowState} {e : ParsedEscrowEvent}

/-! ### The automatic refund -/

/-- Until when the refund waits.  The clocks of the locker and of the LOCK both count, and a circle
has the end of its round. -/
def refundDeadline (state : EscrowState) : Option JsNumber :=
  if state.chamaPolicy.isSome then some state.expiresAt
  else match state.lockEvent?, state.lock.lockedAt with
    | some lock, some lockedAt =>
      let timeout := state.tradeTimeoutSeconds.getD (state.expiresAt - lockedAt)
      if lockedAt.isFinite ∧ lock.timestamp.isFinite ∧ timeout.isFinite ∧ 0 < timeout then
        some (lockedAt.max lock.timestamp + timeout)
      else none
    | _, _ => none

/-- The checks before the first await, at two readings of the clock. -/
def mayAutoRefund (state : EscrowState) (now contestAt : ℤ) : Bool :=
  !holdsBackShares state
    && (state.status = .locked
      || state.status = .expired && !state.eventChain.any fun e => e.kind = .resolve)
    && (refundDeadline state).any (fun deadline => !(.ofInt now ≤ deadline : Bool))
    && !isPerformanceContest state (.ofInt contestAt)

/-- Whether the key that the signer answers with votes: a party that has not, or a backup. -/
def votesAlone (state : EscrowState) (me : String) : Bool :=
  match getRole state me with
  | some role => (state.votes.get role).isNone
  | none => state.lock.arbiterPoolShare = some true
      && (arbiterVotePriority state me).toOption.any Option.isSome
      && !state.eventChain.any fun e => e.kind = .vote && e.pubkey = me

inductive RefundPhase
  | idle
  /-- The checks passed on `seen`, and the signer is asked for its key. -/
  | asking (seen : EscrowState) (now : ℤ)
  /-- `vote` has read the trade. -/
  | voting (seen : EscrowState) (me : String) (now : ℤ)
  /-- The vote waits for the signer. -/
  | signing (me : String) (role : Role) (votedAt now : ℤ)

/-- The trade as the client holds it, and the votes that were published with the trade that each
was applied to. -/
structure RefundWorld where
  held : EscrowState
  phase : RefundPhase := .idle
  published : List (EscrowState × ParsedEscrowEvent) := []

inductive RefundStep
  | event (e : ParsedEscrowEvent)
  | check (now contestAt : ℤ)
  | key (me : String)
  | judge (cycle : Option ChamaCycleContext) (checkedAt votedAt : ℤ)
  | publish (e : ParsedEscrowEvent)
  | fail

def isRefundVote (e : ParsedEscrowEvent) (me : String) (role : Role) (votedAt : ℤ) : Bool :=
  match e.payload with
  | .vote p => p.outcome = .refund && p.role = role && p.votedAt = .ofInt votedAt
      && e.pubkey = me && e.timestamp = .ofInt votedAt
  | _ => false

variable (host) in
def refundStep (w : RefundWorld) : RefundStep → Except Unit RefundWorld
  | .event e =>
    match applyToState host w.held e with
    | .ok held => .ok { w with held }
    | .error _ => .error ()
  | .check now contestAt =>
    match w.phase with
    | .idle =>
      if mayAutoRefund w.held now contestAt then .ok { w with phase := .asking w.held now }
      else .error ()
    | _ => .error ()
  | .key me =>
    match w.phase with
    | .asking seen now =>
      if votesAlone seen me then .ok { w with phase := .voting w.held me now } else .error ()
    | _ => .error ()
  | .judge cycle checkedAt votedAt =>
    match w.phase with
    | .voting seen me now =>
      match VoteSlots.votingRole seen me (.ofInt checkedAt),
        VoteSlots.canVote host seen me (.ofInt checkedAt) .refund
          (VoteSlots.judgedCycle seen cycle) with
      | .ok role, .ok none => .ok { w with phase := .signing me role votedAt now }
      | _, _ => .error ()
    | _ => .error ()
  | .publish e =>
    match w.phase with
    | .signing me role votedAt _ =>
      if isRefundVote e me role votedAt && (applyToState host w.held e).isOk then
        .ok { w with phase := .idle, published := (w.held, e) :: w.published }
      else .error ()
    | _ => .error ()
  | .fail => .ok { w with phase := .idle }

def RefundPhase.since : RefundPhase → Option ℤ
  | idle => none
  | asking _ now | voting _ _ now | signing _ _ _ now => some now

variable (host) in
/-- An event after which the party that did not lock stands by its claim, and no arbiter has ruled
against it. -/
def OpensContest (s : EscrowState) (e : ParsedEscrowEvent) : Prop :=
  ∃ s', applyToState host s e = .ok s' ∧ isPerformanceContest s' 0 = true

variable (host) in
/-- While a refund is under way no event opens a contest, and the clock is not set back. -/
def RefundUndisturbed (w : RefundWorld) (step : RefundStep) : Prop :=
  ∀ now, w.phase.since = some now →
    match step with
    | .event e => ¬ OpensContest host w.held e
    | .judge _ _ votedAt => now ≤ votedAt
    | _ => True

variable (host) in
def RefundRuns (C : RefundWorld → RefundStep → Prop) : RefundWorld → Prop :=
  Run (refundStep host)
    (fun w => Reached host w.held ∧ w.phase = .idle ∧ w.published = []) C

/-- What a refund vote must find. -/
structure RefundSafe (s : EscrowState) (at_ : JsNumber) : Prop where
  uncontested : ∀ now, isPerformanceContest s now = false
  released : holdsBackShares s = false
  past : ∃ deadline, refundDeadline s = some deadline ∧ deadline < at_

/-! ### What the checks establish -/

theorem contest_congr (h : s.chamaPolicy = none) (now now' : JsNumber) :
    isPerformanceContest s now = isPerformanceContest s now' := by
  unfold isPerformanceContest
  rw [h]
  cases payoutRecipientFor s .release <;> simp

theorem refundDeadline_ne_nan {deadline : JsNumber} (hplain : s.chamaPolicy = none)
    (h : refundDeadline s = some deadline) : deadline ≠ .nan := by
  unfold refundDeadline at h
  rw [if_neg (by simp [hplain])] at h
  split at h
  · rename_i lock lockedAt hlock hat
    dsimp only at h
    split_ifs at h with hfinite
    obtain rfl := Option.some.inj h
    obtain ⟨hat', htime, htimeout, -⟩ := hfinite
    generalize s.tradeTimeoutSeconds.getD (s.expiresAt - lockedAt) = timeout at htimeout
    refine JsNumber.max_cases (· + timeout ≠ .nan) ?_ ?_ ⟨?_, ?_⟩ <;>
      cases lockedAt <;> cases ht : lock.timestamp <;> cases timeout <;>
        simp_all [JsNumber.isFinite, JsNumber.fin_add_fin, JsNumber.ofRat_ne_nan]
  · cases h

theorem Reached.timeout (h : Reached host s) (hlocked : s.lock.lockedAt.isSome = true) :
    s.tradeTimeoutSeconds.isSome = true := by
  refine Reached.of_lock (I := fun s => s.lock.lockedAt.isSome = true →
    s.tradeTimeoutSeconds.isSome = true) (fun s hempty h => ?_) (fun h hkind hlock => ?_)
    (fun {s e s'} hstep hreached hlocked hs h => ?_) h hlocked
  · rw [hempty] at h
    cases h
  · cases h
    case locked => exact fun _ => rfl
    all_goals simp_all [ParsedEscrowEvent.kind, EscrowPayload.kind]
  · have hcore := hstep.pastOpen_core (hreached.funded hlocked).not_open
    have hat : s'.lock.lockedAt = s.lock.lockedAt := congrArg CustodyCore.lockedAt hcore
    have htimeout : s'.tradeTimeoutSeconds = s.tradeTimeoutSeconds :=
      congrArg CustodyCore.tradeTimeoutSeconds hcore
    rw [htimeout]
    exact hs (hat ▸ h)

theorem Stepped.refundDeadline (h : Stepped host s e s') (hs : Reached host s)
    (hopen : s.status ≠ .created) (hplain : s.chamaPolicy = none) {deadline : JsNumber}
    (hdeadline : refundDeadline s = some deadline) : refundDeadline s' = some deadline := by
  have hcore := h.pastOpen_core hopen
  have hpolicy : s'.chamaPolicy = s.chamaPolicy := congrArg TradeTerms.chamaPolicy h.terms
  have hat : s'.lock.lockedAt = s.lock.lockedAt := congrArg CustodyCore.lockedAt hcore
  have htimeout : s'.tradeTimeoutSeconds = s.tradeTimeoutSeconds :=
    congrArg CustodyCore.tradeTimeoutSeconds hcore
  unfold ChamaEscrow.refundDeadline at hdeadline ⊢
  rw [hpolicy, hat, htimeout]
  rw [if_neg (by simp [hplain])] at hdeadline ⊢
  split at hdeadline
  · rename_i lock lockedAt hlock hlockedAt
    obtain ⟨timeout, hlimit⟩ := Option.isSome_iff_exists.mp (hs.timeout (by rw [hlockedAt]; rfl))
    rw [h.lockEvent hlock, hlockedAt, hlimit]
    rw [hlimit] at hdeadline
    exact hdeadline
  · cases hdeadline

theorem Stepped.holdsBackShares (h : Stepped host s e s') (hopen : s.status ≠ .created)
    (hreleased : holdsBackShares s = false) : holdsBackShares s' = false := by
  unfold ChamaEscrow.holdsBackShares at hreleased ⊢
  cases h.pastOpen hopen with
  | keeps hkeeps =>
    rw [hkeeps.withheld]
    exact hreleased
  | plan hplan =>
    rw [hplan.withheld]
    exact hreleased
  | release hrelease =>
    obtain ⟨-, withheld, -, -, hheld, -, hfresh, -⟩ := hrelease.step
    simp [hheld, hfresh] at hreleased

/-- What is known of the trade while a refund is under way whose checks were made at `now`. -/
structure Cleared (s : EscrowState) (now : ℤ) : Prop where
  moved : s.status ≠ .created
  released : holdsBackShares s = false
  uncontested : s.chamaPolicy = none → isPerformanceContest s 0 = false
  past : s.chamaPolicy = none → ∃ deadline, refundDeadline s = some deadline ∧
    deadline < .ofInt now

theorem cleared_of_check {now contestAt : ℤ} (h : mayAutoRefund s now contestAt = true) :
    Cleared s now := by
  unfold mayAutoRefund at h
  simp only [Bool.and_eq_true, Bool.not_eq_true', Bool.or_eq_true, decide_eq_true_eq,
    Option.any_eq_true] at h
  obtain ⟨⟨⟨hreleased, hstatus⟩, deadline, hdeadline, hlate⟩, hcontest⟩ := h
  refine ⟨?_, hreleased, fun hplain => ?_, fun hplain => ⟨deadline, hdeadline, ?_⟩⟩
  · rcases hstatus with h | h
    · rw [h]
      decide
    · rw [h.1]
      decide
  · rw [contest_congr hplain 0 (.ofInt contestAt)]
    exact hcontest
  · by_contra hnot
    have hle := JsNumber.le_of_not_lt (refundDeadline_ne_nan hplain hdeadline)
      (JsNumber.ofInt_ne_nan now) hnot
    rw [decide_eq_false_iff_not] at hlate
    exact hlate hle

theorem Cleared.step {now : ℤ} (h : Cleared s now) (hs : Reached host s)
    (hstep : applyToState host s e = .ok s') (hquiet : ¬ OpensContest host s e) :
    Cleared s' now := by
  have hstepped := applyToState_stepped hstep
  have hpolicy : s'.chamaPolicy = s.chamaPolicy := congrArg TradeTerms.chamaPolicy hstepped.terms
  refine ⟨hstepped.not_open h.moved, hstepped.holdsBackShares h.moved h.released, fun _ => ?_,
    fun hplain => ?_⟩
  · by_contra hcontest
    exact hquiet ⟨s', hstep, by simpa using hcontest⟩
  · rw [hpolicy] at hplain
    obtain ⟨deadline, hdeadline, hlt⟩ := h.past hplain
    exact ⟨deadline, hstepped.refundDeadline hs h.moved hplain hdeadline, hlt⟩

/-! ### Its runs -/

structure RefundInv (host : Host) (w : RefundWorld) : Prop where
  reached : Reached host w.held
  cleared : ∀ now, w.phase.since = some now → Cleared w.held now
  forward : ∀ me role votedAt now, w.phase = .signing me role votedAt now → now ≤ votedAt
  safe : ∀ s e, (s, e) ∈ w.published → s.chamaPolicy = none → RefundSafe s e.timestamp

theorem timestamp_of_isRefundVote {me : String} {role : Role} {votedAt : ℤ}
    (h : isRefundVote e me role votedAt = true) : e.timestamp = .ofInt votedAt := by
  unfold isRefundVote at h
  split at h
  · simp only [Bool.and_eq_true, decide_eq_true_eq] at h
    exact h.2
  · cases h

theorem RefundInv.step {w w' : RefundWorld} {step : RefundStep} (h : RefundInv host w)
    (hC : RefundUndisturbed host w step) (hstep : refundStep host w step = .ok w') :
    RefundInv host w' := by
  cases step with
  | event e =>
    simp only [refundStep] at hstep
    split at hstep
    · rename_i held hheld
      obtain rfl := Except.ok.inj hstep
      exact ⟨h.reached.next hheld, fun now hnow => (h.cleared now hnow).step h.reached hheld
        (hC now hnow), h.forward, h.safe⟩
    · cases hstep
  | check now contestAt =>
    simp only [refundStep] at hstep
    split at hstep
    · split_ifs at hstep with hmay
      obtain rfl := Except.ok.inj hstep
      refine ⟨h.reached, fun now' hnow => ?_, nofun, h.safe⟩
      obtain rfl := Option.some.inj hnow
      exact cleared_of_check hmay
    · cases hstep
  | key me =>
    simp only [refundStep] at hstep
    split at hstep
    · rename_i seen now hphase
      split_ifs at hstep
      obtain rfl := Except.ok.inj hstep
      refine ⟨h.reached, fun now' hnow => h.cleared now' ?_, nofun, h.safe⟩
      rw [hphase]
      exact hnow
    · cases hstep
  | judge cycle checkedAt votedAt =>
    simp only [refundStep] at hstep
    split at hstep
    · rename_i seen me now hphase
      split at hstep
      · rename_i role _ _
        obtain rfl := Except.ok.inj hstep
        refine ⟨h.reached, fun now' hnow => h.cleared now' ?_, ?_, h.safe⟩
        · rw [hphase]
          exact hnow
        · rintro me' role' votedAt' now' heq
          obtain ⟨rfl, rfl, rfl, rfl⟩ := RefundPhase.signing.inj heq
          exact hC now (by rw [hphase]; rfl)
      · cases hstep
    · cases hstep
  | publish e =>
    simp only [refundStep] at hstep
    split at hstep
    · rename_i me role votedAt now hphase
      split_ifs at hstep with hvote
      obtain rfl := Except.ok.inj hstep
      refine ⟨h.reached, nofun, nofun, fun s e' hmem hplain => ?_⟩
      rcases List.mem_cons.mp hmem with heq | hmem
      · obtain ⟨rfl, rfl⟩ := Prod.mk.inj heq
        have hcleared := h.cleared now (by rw [hphase]; rfl)
        have htime := timestamp_of_isRefundVote (Bool.and_eq_true_iff.mp hvote).1
        obtain ⟨deadline, hdeadline, hlt⟩ := hcleared.past hplain
        refine ⟨fun at_ => ?_, hcleared.released, deadline, hdeadline, ?_⟩
        · rw [contest_congr hplain at_ 0]
          exact hcleared.uncontested hplain
        · rw [htime]
          exact JsNumber.lt_of_lt_of_le hlt
            (JsNumber.ofInt_mono (h.forward me role votedAt now hphase))
      · exact h.safe s e' hmem hplain
    · cases hstep
  | fail =>
    obtain rfl := Except.ok.inj hstep
    exact ⟨h.reached, nofun, nofun, h.safe⟩

/-- In every run in which no contest opens while a refund is under way, and the clock is not set
back, an automatic refund of a trade outside circles is published on a trade that is not contested,
whose shares are released, and whose time is over. -/
theorem auto_refund_safe (host : Host) (w : RefundWorld)
    (h : RefundRuns host (RefundUndisturbed host) w) :
    ∀ s e, (s, e) ∈ w.published → s.chamaPolicy = none → RefundSafe s e.timestamp := by
  have hinv : RefundInv host w := by
    refine Run.invariant (fun w hw => ?_) (fun w step w' hC hw hstep => hw.step hC hstep) h
    obtain ⟨hreached, hidle, hnone⟩ := hw
    refine ⟨hreached, fun now hnow => ?_, fun me role votedAt now heq => ?_, fun s e hmem => ?_⟩
    · rw [hidle] at hnow
      cases hnow
    · rw [hidle] at heq
      cases heq
    · rw [hnone] at hmem
      cases hmem
  exact hinv.safe

/-- The refund of the sample trade's seller, an hour after the LOCK. -/
def refundSteps (meanwhile : List RefundStep) : List RefundStep :=
  .check 1800004000 1800004000 :: meanwhile ++ [.key (hexKey 'a'),
    .judge none 1800004001 1800004001,
    .publish (sampleVote '4' 'a' 1800004001 .seller .refund)]

/-- The buyer's RELEASE arrives while the signer is asked for the key. -/
theorem auto_refund_contested : ¬ ∀ (host : Host) (w : RefundWorld),
    RefundRuns host (fun _ _ => True) w →
      ∀ s e, (s, e) ∈ w.published → s.chamaPolicy = none → RefundSafe s e.timestamp := by
  intro hall
  have hrun : (liveTrade silentHost sampleCreate [sampleJoin, sampleLock]).any (fun s =>
      ((refundSteps [.event (sampleVote '3' 'b' 1800003000 .buyer .release)]).foldlM
        (checked (refundStep silentHost) fun _ _ => true) { held := s }).any fun w =>
          w.published.any fun p =>
            p.1.chamaPolicy = none && isPerformanceContest p.1 0) = true := by
    decide +kernel
  obtain ⟨s, hs, h⟩ := (Option.any_eq_true _ _).mp hrun
  obtain ⟨w, hw, h⟩ : ∃ w, RefundRuns silentHost (fun _ _ => True) w ∧ _ :=
    Run.exists_of_checked ⟨liveTrade_reached silentHost hs, rfl, rfl⟩ (fun _ _ => true)
      (fun _ _ _ => trivial) _ h
  obtain ⟨⟨t, e⟩, hmem, h⟩ := List.any_eq_true.mp h
  rw [Bool.and_eq_true, decide_eq_true_eq] at h
  have hsafe := (hall silentHost w hw t e hmem h.1).uncontested 0
  rw [h.2] at hsafe
  cases hsafe

theorem auto_refund_safe_sample : ∃ (w : RefundWorld) (s : EscrowState) (e : ParsedEscrowEvent),
    (s, e) ∈ w.published ∧ s.status = .locked ∧ RefundSafe s e.timestamp := by
  have hrun : (liveTrade silentHost sampleCreate [sampleJoin, sampleLock]).any (fun s =>
      ((refundSteps []).foldlM (checked (refundStep silentHost) fun w step =>
        match step with
        | .event _ => w.phase.since.isNone
        | .judge _ _ votedAt => w.phase.since.all (· ≤ votedAt)
        | _ => true) { held := s }).any fun w =>
          w.published.any fun p => p.1.chamaPolicy = none && p.1.status = .locked) = true := by
    decide +kernel
  obtain ⟨s, hs, h⟩ := (Option.any_eq_true _ _).mp hrun
  obtain ⟨w, hw, h⟩ : ∃ w, RefundRuns silentHost (RefundUndisturbed silentHost) w ∧ _ := by
    refine Run.exists_of_checked ⟨liveTrade_reached silentHost hs, rfl, rfl⟩ _
      (fun w step hok now hnow => ?_) _ h
    cases step <;> simp_all
  obtain ⟨⟨t, e⟩, hmem, h⟩ := List.any_eq_true.mp h
  simp only [Bool.and_eq_true, decide_eq_true_eq] at h
  exact ⟨w, t, e, hmem, h.2, auto_refund_safe silentHost w hw t e hmem h.1⟩

/-- Once a trade outside circles is funded, no later event moves the time of its refund, or holds
its shares back again. -/
theorem refund_terms_fixed (host : Host) (s : EscrowState) (es : List ParsedEscrowEvent)
    (deadline : JsNumber) (hs : Reached host s) (hopen : s.status ≠ .created)
    (hplain : s.chamaPolicy = none) (hdeadline : refundDeadline s = some deadline) :
    refundDeadline (liveFold (applyToState host) s es) = some deadline ∧
      (holdsBackShares s = false →
        holdsBackShares (liveFold (applyToState host) s es) = false) := by
  have hinv := liveFold_invariant (I := fun t => Reached host t ∧ t.status ≠ .created ∧
    t.chamaPolicy = none ∧ refundDeadline t = some deadline ∧
      (holdsBackShares s = false → holdsBackShares t = false))
    (fun t e t' ht (h : applyToState host t e = .ok t') => ?_)
    ⟨hs, hopen, hplain, hdeadline, id⟩ es
  · exact hinv.2.2.2
  · obtain ⟨hreached, hmoved, hpolicy, hstands, hreleased⟩ := ht
    have hstep := applyToState_stepped h
    have hsame : t'.chamaPolicy = t.chamaPolicy := congrArg TradeTerms.chamaPolicy hstep.terms
    exact ⟨hreached.next h, hstep.not_open hmoved, hsame.trans hpolicy,
      hstep.refundDeadline hreached hmoved hpolicy hstands,
      fun hfree => hstep.holdsBackShares hmoved (hreleased hfree)⟩

theorem refund_terms_fixed_sample : ∃ (s : EscrowState) (deadline : JsNumber),
    s.status = .locked ∧ refundDeadline s = some deadline ∧
      refundDeadline (liveFold (applyToState silentHost) s fundedEvents) = some deadline := by
  have hrun : (liveTrade silentHost sampleCreate [sampleJoin, sampleLock]).any (fun s =>
      s.chamaPolicy = none && s.status = .locked && (refundDeadline s).isSome) = true := by
    decide +kernel
  obtain ⟨s, hs, h⟩ := (Option.any_eq_true _ _).mp hrun
  simp only [Bool.and_eq_true, decide_eq_true_eq, Option.isSome_iff_exists] at h
  obtain ⟨⟨hplain, hlocked⟩, deadline, hdeadline⟩ := h
  exact ⟨s, deadline, hlocked, hdeadline, (refund_terms_fixed silentHost s fundedEvents deadline
    (liveTrade_reached silentHost hs) (by rw [hlocked]; decide) hplain hdeadline).1⟩

/-! ### The automatic RESOLVE -/

/-- `maybeAutoResolve`, up to the signature: the first two voters of an outcome.  A share of a
rotation carries the evidence of its cycle, and waits without it. -/
def autoResolve (state : EscrowState) (cycle : Option ChamaCycleContext) (now : JsNumber) :
    Option ResolvePayload :=
  let cycle := VoteSlots.judgedCycle state cycle
  let payload (outcome : Outcome) (r r' : Role) : ResolvePayload :=
    { outcome
      majority := [some r, some r']
      fillEvidence :=
        match cycle, truthyKey state.parent with
        | some cycle, some parent => VoteSlots.fillEvidenceFor parent cycle
        | _, _ => .undefined
      resolvedAt := now }
  if state.status ≠ .locked ∧ state.status ≠ .expired then none
  else if state.eventChain.any fun e => e.kind = .resolve then none
  else if state.chamaPolicy = some .shareV2 ∧ cycle.isNone then none
  else match votersFor state.votes .release, votersFor state.votes .refund with
    | r :: r' :: _, _ => some (payload .release r r')
    | _, r :: r' :: _ => some (payload .refund r r')
    | _, _ => none

theorem autoResolve_names {cycle : Option ChamaCycleContext} {now : JsNumber} {p : ResolvePayload}
    (h : autoResolve s cycle now = some p) : ∃ r r' rest, p.majority = [some r, some r'] ∧
      votersFor s.votes p.outcome = r :: r' :: rest := by
  unfold autoResolve at h
  dsimp only at h
  split_ifs at h
  split at h
  · rename_i r r' rest hvoters
    obtain rfl := Option.some.inj h
    exact ⟨r, r', rest, rfl, hvoters⟩
  · rename_i r r' rest hvoters _
    obtain rfl := Option.some.inj h
    exact ⟨r, r', rest, rfl, hvoters⟩
  · cases h

theorem mem_votes_keys {votes : Votes} {role : Role} :
    role ∈ votes.keys ↔ ∃ o, votes.get role = some o := by
  unfold OrderedMap.keys
  simp [List.mem_map, votes.get_eq_some_iff]

theorem first_voters {o : Outcome} {r r' : Role} {rest : List Role} {votes : Votes}
    (hvoters : votersFor votes o = r :: r' :: rest) :
    r ≠ r' ∧ votes.get r = some o ∧ votes.get r' = some o := by
  have hnodup := nodup_votersFor votes o
  rw [hvoters] at hnodup
  refine ⟨?_, mem_votersFor.mp (by simp [hvoters]), mem_votersFor.mp (by simp [hvoters])⟩
  rintro rfl
  simp at hnodup

theorem castFirst_later {o : Outcome} {r r' : Role} {rest : List Role} {votes later : Votes}
    (hvoters : votersFor votes o = r :: r' :: rest) (hkeys : votes.keys <+: later.keys)
    (hstand : ∀ role o, votes.get role = some o → later.get role = some o) :
    CastFirst later o r r' := by
  obtain ⟨hne, hr, hr'⟩ := first_voters hvoters
  have hfirst : CastFirst votes o r r' := by
    rw [← sameMajority_iff hne hr hr', hvoters]
    simp [sameMajority, List.Nodup.dedup, hne]
  intro third hthird hthird' hvote
  cases hbefore : votes.get third with
  | some o' =>
    obtain rfl : o' = o := Option.some.inj ((hstand third o' hbefore).symm.trans hvote)
    obtain ⟨hleft, hright⟩ := hfirst third hthird hthird' hbefore
    exact ⟨hleft.trans hkeys.sublist, hright.trans hkeys.sublist⟩
  | none =>
    obtain ⟨new, hnew⟩ := hkeys
    have hin : third ∈ new := by
      have hmem : third ∈ later.keys := mem_votes_keys.mpr ⟨o, hvote⟩
      rw [← hnew] at hmem
      refine (List.mem_append.mp hmem).resolve_left fun hold => ?_
      obtain ⟨o', ho'⟩ := mem_votes_keys.mp hold
      rw [hbefore] at ho'
      cases ho'
    have listed {role : Role} (hrole : votes.get role = some o) :
        [role, third].Sublist later.keys := by
      rw [← hnew]
      exact List.Sublist.append (List.singleton_sublist.mpr (mem_votes_keys.mpr ⟨o, hrole⟩))
        (List.singleton_sublist.mpr hin)
    exact ⟨listed hr, listed hr'⟩

end ChamaEscrow
