import ChamaEscrow.Trade.PlanState

/-!
# The funding loop of a sliced trade

`runSliceFundingLoop` (`slice-funding-loop.ts`) reads the state of the plan again after each child
that it funds, and remembers the child that it funded last.  A run is a sequence of rounds, each
with what the loop is handed in it: the abort signal, the state of the plan and how the funding of a
child ends.

* `loopAfter_running_iff`: the loop goes on exactly as long as every round funds a child other than
  the one before it.
* `slice_loop_funds_once`: no child is funded twice and the loop ends if and only if no state of the
  plan offers a child that the loop had gone past.
* `stale_snapshot_funds_again`: two states of the plan in turn keep the loop funding for ever.
-/

namespace ChamaEscrow

open Js Library

/-! ### The loop -/

inductive FundAndLockTerminal
  | locked
  | expired
  | mintTimeout
  | aborted
  | fundingNotStarted
  | lockFailed (error : String)
  deriving DecidableEq

def FundAndLockTerminal.errorText : FundAndLockTerminal → String
  | .lockFailed error => error
  | .locked => "Slice funding ended: locked"
  | .expired => "Slice funding ended: expired"
  | .mintTimeout => "Slice funding ended: mint-timeout"
  | .aborted => "Slice funding ended: aborted"
  | .fundingNotStarted => "Slice funding ended: funding-not-started"

inductive SliceFundingProgress
  | sliceFunding (index total : JsNumber) (childId : String) (amountMsats : JsNumber)
  | sliceFunded (index total : JsNumber) (childId : String)

inductive SliceFundingStop
  | complete
  | awaitingSettlement
  | publishMissingChildren
  | repairPlan
  | noPlan
  | fundFailed
  | aborted
  deriving DecidableEq

structure SliceFundingResult where
  stop : SliceFundingStop
  fundedThisRun : ℕ
  settledCount : ℕ
  total : JsNumber
  activeChildId : Option String
  error : Option String := none

/-- A call of `fundChild`. -/
structure SliceFunding where
  childId : String
  index : JsNumber
  amountMsats : JsNumber

/-- What one iteration of the loop is handed: the abort signal, the snapshot of the plan, and the
end of `fundChild`, which may throw. -/
structure SliceRound where
  aborted : Bool
  planState : Except JsError (Option PlanState)
  funding : Except String FundAndLockTerminal

/-- The variables of the loop, the calls and the progress it has made, and its result. -/
structure SliceLoop where
  fundedThisRun : ℕ
  lastFundedChildId : Option String
  calls : List SliceFunding
  progress : List SliceFundingProgress
  result : Option (Except JsError SliceFundingResult)

namespace SliceLoop

def start : SliceLoop := ⟨0, none, [], [], none⟩

def endsEarly (loop : SliceLoop) (stop : SliceFundingStop) : SliceLoop :=
  { loop with result := some (.ok ⟨stop, loop.fundedThisRun, 0, 0, none, none⟩) }

def endsAt (loop : SliceLoop) (plan : PlanState) (stop : SliceFundingStop)
    (activeChildId error : Option String) : SliceLoop :=
  { loop with result := some (.ok
      ⟨stop, loop.fundedThisRun, plan.settledCount, plan.plan.total, activeChildId, error⟩) }

def fund (loop : SliceLoop) (plan : PlanState) (active : PlanRow)
    (funding : Except String FundAndLockTerminal) : SliceLoop :=
  let total := plan.plan.total
  let called : SliceLoop := { loop with
    calls := loop.calls ++ [⟨active.id, active.index, active.amountMsats⟩]
    progress := loop.progress ++ [.sliceFunding active.index total active.id active.amountMsats] }
  match funding with
  | .error message =>
    let msg := trim message
    let reason := if msg = "" then "" else s!": {msg}"
    called.endsAt plan .fundFailed plan.activeChildId
      (some (s!"Slice {active.index + 1} funding was interrupted{reason} "
        ++ "Any spent sats are stashed for return; re-enter to resume."))
  | .ok .locked => { called with
      fundedThisRun := loop.fundedThisRun + 1
      lastFundedChildId := some active.id
      progress := called.progress ++ [.sliceFunded active.index total active.id] }
  | .ok .aborted => called.endsAt plan .aborted plan.activeChildId none
  | .ok terminal => called.endsAt plan .fundFailed plan.activeChildId (some terminal.errorText)

end SliceLoop

def PlanState.activeRow (plan : PlanState) : Option PlanRow :=
  plan.children.find? fun c => some c.id = plan.activeChildId && c.valid

/-- An iteration of `runSliceFundingLoop`. -/
def SliceLoop.iterate (loop : SliceLoop) (round : SliceRound) : SliceLoop :=
  if round.aborted then loop.endsEarly .aborted
  else match round.planState with
  | .error problem => { loop with result := some (.error problem) }
  | .ok none => loop.endsEarly .noPlan
  | .ok (some plan) =>
    match plan.nextSafeAction with
    | .complete => loop.endsAt plan .complete none none
    | .repairPlan => loop.endsAt plan .repairPlan none none
    | .publishMissingChildren =>
      loop.endsAt plan .publishMissingChildren plan.activeChildId none
    | .settleActiveChild => loop.endsAt plan .awaitingSettlement plan.activeChildId none
    | .fundActiveChild =>
      match plan.activeRow with
      | none => loop.endsAt plan .repairPlan plan.activeChildId none
      | some active =>
        -- The child's LOCK may not have reached this snapshot yet.
        if some active.id = loop.lastFundedChildId then
          loop.endsAt plan .awaitingSettlement plan.activeChildId none
        else loop.fund plan active round.funding

/-- `runSliceFundingLoop`, up to an iteration. -/
def loopAfter (rounds : ℕ → SliceRound) : ℕ → SliceLoop
  | 0 => .start
  | n + 1 =>
    let loop := loopAfter rounds n
    if loop.result.isSome then loop else loop.iterate (rounds n)

/-! ### What a round offers -/

def SliceRound.offered (round : SliceRound) : Option String :=
  if round.aborted then none
  else match round.planState with
  | .ok (some plan) =>
    if plan.nextSafeAction = .fundActiveChild then plan.activeRow.map PlanRow.id else none
  | _ => none

def SliceLoop.fundedIds (loop : SliceLoop) : List String := loop.calls.map SliceFunding.childId

/-- What an iteration does: it stops with no call, or it calls `fundChild` for the child offered and
goes on exactly when that locks. -/
theorem SliceLoop.iterate_cases (loop : SliceLoop) (round : SliceRound) :
    ((round.offered = none ∨ round.offered = loop.lastFundedChildId) ∧
        (loop.iterate round).result.isSome = true ∧
        (loop.iterate round).fundedIds = loop.fundedIds) ∨
      ∃ id, round.offered = some id ∧ some id ≠ loop.lastFundedChildId ∧
        (loop.iterate round).fundedIds = loop.fundedIds ++ [id] ∧
        ((round.funding = .ok .locked ∧ (loop.iterate round).result = loop.result ∧
            (loop.iterate round).lastFundedChildId = some id) ∨
          (round.funding ≠ .ok .locked ∧ (loop.iterate round).result.isSome = true)) := by
  rw [SliceLoop.iterate, SliceRound.offered]
  by_cases haborted : round.aborted = true
  · rw [if_pos haborted, if_pos haborted]
    exact Or.inl ⟨Or.inl rfl, rfl, rfl⟩
  rw [if_neg haborted, if_neg haborted]
  rcases round.planState with problem | none | plan
  · exact Or.inl ⟨Or.inl rfl, rfl, rfl⟩
  · exact Or.inl ⟨Or.inl rfl, rfl, rfl⟩
  dsimp only
  by_cases hfund : plan.nextSafeAction = .fundActiveChild
  · rw [if_pos hfund, hfund]
    dsimp only
    cases plan.activeRow with
    | none => exact Or.inl ⟨Or.inl rfl, rfl, rfl⟩
    | some active =>
      dsimp only [Option.map_some]
      by_cases hlast : some active.id = loop.lastFundedChildId
      · rw [if_pos hlast]
        exact Or.inl ⟨Or.inr hlast, rfl, rfl⟩
      · rw [if_neg hlast]
        refine Or.inr ⟨active.id, rfl, hlast, ?_⟩
        rcases round.funding with message | terminal
        · exact ⟨List.map_append, Or.inr ⟨nofun, rfl⟩⟩
        · cases terminal with
          | locked => exact ⟨List.map_append, Or.inl ⟨rfl, rfl, rfl⟩⟩
          | _ => exact ⟨List.map_append, Or.inr ⟨nofun, rfl⟩⟩
  · rw [if_neg hfund]
    refine Or.inl ⟨Or.inl rfl, ?_⟩
    cases haction : plan.nextSafeAction with
    | fundActiveChild => exact absurd haction hfund
    | _ => exact ⟨rfl, rfl⟩

/-! ### The course of the loop -/

variable {id : String}

section

variable {rounds : ℕ → SliceRound}

/-- Whether the first rounds keep the loop going: each offers a child, other than the one before it,
and locks it. -/
structure Proceeds (rounds : ℕ → SliceRound) (n : ℕ) : Prop where
  locks : ∀ m < n, (rounds m).offered.isSome = true ∧ (rounds m).funding = .ok .locked
  advances : ∀ m, m + 1 < n → (rounds (m + 1)).offered ≠ (rounds m).offered

theorem Proceeds.of_le {m n : ℕ} (h : Proceeds rounds n) (hle : m ≤ n) : Proceeds rounds m :=
  ⟨fun i hi => h.locks i (hi.trans_le hle), fun i hi => h.advances i (hi.trans_le hle)⟩

/-- What the loop holds while it goes on. -/
structure Running (rounds : ℕ → SliceRound) (n : ℕ) (loop : SliceLoop) : Prop where
  result : loop.result = none
  funded : loop.fundedIds.map some = (List.range n).map fun m => (rounds m).offered
  last : ∀ m, n = m + 1 → loop.lastFundedChildId = (rounds m).offered
  proceeds : Proceeds rounds n

/-- The loop before its first iteration. -/
theorem running_start : Running rounds 0 .start :=
  ⟨rfl, rfl, nofun, ⟨nofun, nofun⟩⟩

variable {n : ℕ}

variable {loop : SliceLoop}

theorem Running.iterate (h : Running rounds n loop)
    (hresult : (loop.iterate (rounds n)).result = none) :
    Running rounds (n + 1) (loop.iterate (rounds n)) := by
  rcases loop.iterate_cases (rounds n) with ⟨-, hstops, -⟩ | ⟨id, hoffered, hlast, hfunded, hgoes⟩
  · rw [hresult] at hstops
    cases hstops
  rcases hgoes with ⟨hlocked, -, hlastNext⟩ | ⟨-, hstops⟩
  · refine ⟨hresult, ?_, fun m hm => ?_, fun m hm => ?_, fun m hm => ?_⟩
    · rw [hfunded, List.map_append, h.funded, List.range_succ, List.map_append,
        List.map_singleton, List.map_singleton, hoffered]
    · rw [hlastNext, ← Nat.succ.inj hm, hoffered]
    · rcases (Nat.lt_succ_iff.mp hm).lt_or_eq with hm | rfl
      · exact h.proceeds.locks m hm
      · exact ⟨Option.isSome_iff_exists.mpr ⟨id, hoffered⟩, hlocked⟩
    · rcases (Nat.lt_succ_iff.mp hm).lt_or_eq with hm | rfl
      · exact h.proceeds.advances m hm
      · rw [hoffered, ← h.last m rfl]
        exact hlast
  · rw [hresult] at hstops
    cases hstops

theorem loopAfter_succ_of_running (h : (loopAfter rounds n).result = none) :
    loopAfter rounds (n + 1) = (loopAfter rounds n).iterate (rounds n) := by
  rw [loopAfter, h]
  rfl

theorem loopAfter_succ_of_stopped (h : (loopAfter rounds n).result.isSome = true) :
    loopAfter rounds (n + 1) = loopAfter rounds n := by
  rw [loopAfter, if_pos h]

theorem running_of_result_none (h : (loopAfter rounds n).result = none) :
    Running rounds n (loopAfter rounds n) := by
  induction n with
  | zero => exact running_start
  | succ n ih =>
    cases hprev : (loopAfter rounds n).result with
    | none =>
      rw [loopAfter_succ_of_running hprev] at h ⊢
      exact (ih hprev).iterate h
    | some result =>
      rw [loopAfter_succ_of_stopped (by rw [hprev]; rfl), hprev] at h
      cases h

theorem loopAfter_running_iff : (loopAfter rounds n).result = none ↔ Proceeds rounds n := by
  constructor
  · exact fun h => (running_of_result_none h).proceeds
  · intro h
    induction n with
    | zero => rfl
    | succ n ih =>
      have hprev := ih (h.of_le n.le_succ)
      have hrunning := running_of_result_none hprev
      obtain ⟨hoffered, hlocked⟩ := h.locks n n.lt_succ_self
      rw [loopAfter_succ_of_running hprev]
      rcases (loopAfter rounds n).iterate_cases (rounds n) with
        ⟨hnone | hlast, -⟩ | ⟨id, -, -, -, ⟨-, hresult, -⟩ | ⟨hfailed, -⟩⟩
      · rw [hnone] at hoffered
        cases hoffered
      · cases n with
        | zero => rw [hlast] at hoffered; cases hoffered
        | succ m => exact absurd (hlast.trans (hrunning.last m rfl)) (h.advances m (m + 1).lt_succ_self)
      · exact hresult.trans hprev
      · exact absurd hlocked hfailed

/-! ### Funding once -/

/-- The loop funds no child twice, and ends. -/
structure FundsOnce (rounds : ℕ → SliceRound) : Prop where
  once : ∀ n, (loopAfter rounds n).fundedIds.Nodup
  ends : ∃ n, (loopAfter rounds n).result.isSome = true

/-- As long as the loop goes on, no round offers a child that an earlier round than the one just
before has offered. -/
def NeverReturns (rounds : ℕ → SliceRound) : Prop :=
  ∀ n, Proceeds rounds n → ∀ i, i + 1 < n → ∀ id, (rounds i).offered = some id →
    (rounds n).offered ≠ some id

theorem Running.mem_fundedIds (h : Running rounds n loop) :
    id ∈ loop.fundedIds ↔ ∃ m < n, (rounds m).offered = some id := by
  rw [← List.mem_map_of_injective (Option.some_injective String), h.funded, List.mem_map]
  exact exists_congr fun m => and_congr_left fun _ => List.mem_range

theorem Running.offered_injective (h : Running rounds n loop)
    (hnodup : loop.fundedIds.Nodup) {i j : ℕ} (hi : i < n) (hj : j < n)
    (heq : (rounds i).offered = (rounds j).offered) : i = j := by
  have hmap : ((List.range n).map fun m => (rounds m).offered).Nodup :=
    h.funded ▸ hnodup.map (Option.some_injective String)
  exact List.inj_on_of_nodup_map hmap (List.mem_range.mpr hi) (List.mem_range.mpr hj) heq

theorem nodup_iff_neverReturns :
    (∀ n, (loopAfter rounds n).fundedIds.Nodup) ↔ NeverReturns rounds := by
  constructor
  · intro hnodup n hproceeds i hi id hoffered hreturned
    have hresult := loopAfter_running_iff.mpr hproceeds
    have hrunning := running_of_result_none hresult
    rcases (loopAfter rounds n).iterate_cases (rounds n) with
      ⟨hnone | hlast, -⟩ | ⟨id', hoffered', -, hfunded, -⟩
    · rw [hnone] at hreturned
      cases hreturned
    · -- The round before offers the child too, so it was funded twice already.
      obtain ⟨m, rfl⟩ : ∃ m, n = m + 1 := ⟨n - 1, by omega⟩
      rw [hrunning.last m rfl] at hlast
      have heq := hrunning.offered_injective (hnodup _) (by omega : i < m + 1) m.lt_succ_self
        (hoffered.trans (hreturned.symm.trans hlast))
      omega
    · have hnext := hnodup (n + 1)
      rw [loopAfter_succ_of_running hresult, hfunded, List.nodup_append] at hnext
      rw [hoffered', Option.some.injEq] at hreturned
      subst hreturned
      exact hnext.2.2 id' (hrunning.mem_fundedIds.mpr ⟨i, by omega, hoffered⟩) id'
        (List.mem_singleton_self id') rfl
  · intro hnever n
    induction n with
    | zero => exact List.nodup_nil
    | succ n ih =>
      cases hresult : (loopAfter rounds n).result with
      | some result =>
        rw [loopAfter_succ_of_stopped (by rw [hresult]; rfl)]
        exact ih
      | none =>
        have hrunning := running_of_result_none hresult
        rw [loopAfter_succ_of_running hresult]
        rcases (loopAfter rounds n).iterate_cases (rounds n) with
          ⟨-, -, hfunded⟩ | ⟨id, hoffered, hlast, hfunded, -⟩
        · rw [hfunded]
          exact ih
        · rw [hfunded, ← List.concat_eq_append, List.nodup_concat]
          refine ⟨fun hmem => ?_, ih⟩
          obtain ⟨i, hi, hfirst⟩ := hrunning.mem_fundedIds.mp hmem
          rcases (Nat.succ_le_of_lt hi).lt_or_eq with hearlier | rfl
          · exact hnever n hrunning.proceeds i hearlier id hfirst hoffered
          · exact hlast ((hrunning.last i rfl).trans hfirst).symm

theorem ends_of_nodup (hnodup : ∀ n, (loopAfter rounds n).fundedIds.Nodup) {ids : List String}
    (hids : ∀ n id, (rounds n).offered = some id → id ∈ ids) :
    ∃ n, (loopAfter rounds n).result.isSome = true := by
  by_contra hforever
  push Not at hforever
  have hresult : (loopAfter rounds (ids.length + 1)).result = none := by
    simpa using hforever (ids.length + 1)
  have hrunning := running_of_result_none hresult
  have hsubset : (loopAfter rounds (ids.length + 1)).fundedIds ⊆ ids := by
    intro id hid
    obtain ⟨m, -, hoffered⟩ := hrunning.mem_fundedIds.mp hid
    exact hids m id hoffered
  have hlength := (List.subperm_of_subset (hnodup _) hsubset).length_le
  have hcount := congrArg List.length hrunning.funded
  rw [List.length_map, List.length_map, List.length_range] at hcount
  omega

end

/-! ### The rounds of a plan -/

def Snapshots (host : Host) (parent : EscrowState) (rounds : ℕ → SliceRound) : Prop :=
  ∀ n plan, (rounds n).planState = .ok (some plan) → ∃ children : List EscrowState,
    (∀ c ∈ children, Reached host c) ∧ derivePlanState host parent children = .ok (some plan)

theorem SliceRound.offered_eq_some {round : SliceRound}
    (h : round.offered = some id) : ∃ plan, round.planState = .ok (some plan) ∧
      plan.nextSafeAction = .fundActiveChild ∧ plan.activeChildId = some id := by
  rw [SliceRound.offered] at h
  split_ifs at h
  rcases hstate : round.planState with problem | none | plan
  · rw [hstate] at h
    cases h
  · rw [hstate] at h
    cases h
  · rw [hstate] at h
    dsimp only at h
    split_ifs at h with hfund
    obtain ⟨row, hrow, rfl⟩ := Option.map_eq_some_iff.mp h
    have hfound := List.find?_some hrow
    rw [Bool.and_eq_true, decide_eq_true_eq] at hfound
    exact ⟨plan, rfl, hfund, hfound.1.symm⟩

theorem offered_of_snapshots {host : Host} {parent : EscrowState} (hparent : Reached host parent)
    {rounds : ℕ → SliceRound} (hsnapshots : Snapshots host parent rounds) :
    ∃ ids : List String, ∀ n id, (rounds n).offered = some id → id ∈ ids := by
  cases hplan : parent.tranchePlan with
  | none =>
    refine ⟨[], fun n id hoffered => ?_⟩
    obtain ⟨plan, hstate, -, -⟩ := SliceRound.offered_eq_some hoffered
    obtain ⟨children, -, hderive⟩ := hsnapshots n plan hstate
    rw [derivePlanState, hplan] at hderive
    cases hderive
  | some frozen =>
    refine ⟨(List.range frozen.tranches.length).filterMap fun k : ℕ =>
      (trancheChildId host parent.id frozen.planId (.fin (k : ℚ))).toOption,
      fun n id hoffered => ?_⟩
    obtain ⟨plan, hstate, hfund, hactive⟩ := SliceRound.offered_eq_some hoffered
    obtain ⟨children, hchildren, hderive⟩ := hsnapshots n plan hstate
    obtain ⟨k, hnext⟩ := fundsNext_of_active hparent hplan hchildren hderive hactive hfund
    exact List.mem_filterMap.mpr ⟨k, List.mem_range.mpr hnext.lt, toOption_eq_some.mpr hnext.id⟩

/-- Over states of one plan the loop funds each child at most once and ends if and only if no state
offers a child that the loop had gone past. -/
theorem slice_loop_funds_once {host : Host} {parent : EscrowState} (hparent : Reached host parent)
    {rounds : ℕ → SliceRound} (hsnapshots : Snapshots host parent rounds) :
    FundsOnce rounds ↔ NeverReturns rounds := by
  constructor
  · exact fun h => nodup_iff_neverReturns.mp h.once
  · intro h
    have hnodup := nodup_iff_neverReturns.mpr h
    obtain ⟨ids, hids⟩ := offered_of_snapshots hparent hsnapshots
    exact ⟨hnodup, ends_of_nodup hnodup hids⟩

/-! ### Sample rounds -/

def lockingRound (plan : PlanState) : SliceRound := ⟨false, .ok (some plan), .ok .locked⟩

theorem offered_lockingRound {plan : PlanState} (hfund : plan.nextSafeAction = .fundActiveChild)
    (hactive : plan.activeRow.map PlanRow.id = some id) :
    (lockingRound plan).offered = some id := by
  rw [SliceRound.offered, lockingRound]
  dsimp only
  rw [if_neg Bool.false_ne_true, if_pos hfund, hactive]

/-- A state of the plan that lags behind the LOCK of its first child: the child is funded once. -/
theorem lagging_snapshot_funds_once : ∃ parent rounds, Reached planHost parent ∧
    FundsOnce rounds ∧ (loopAfter rounds 2).fundedIds = [sampleChildId 0] := by
  have hrun : (sampleParent.any fun parent => (sampleChild 0 []).any fun first =>
      (sampleChild 1 []).any fun second =>
        (derivePlanState planHost parent [first, second]).toOption.any fun plan =>
          plan.any fun plan => plan.nextSafeAction = .fundActiveChild
            && plan.activeRow.map PlanRow.id = some (sampleChildId 0)) = true := by
    decide +kernel
  obtain ⟨parent, first, second, hparent, hfirst, hsecond, h⟩ := exists_of_planTrades
    (fun _ => samplePlanChild_reached) (fun _ => samplePlanChild_reached) hrun
  obtain ⟨_, hderive, h⟩ := exists_ok_of_any h
  obtain ⟨plan, rfl, hoffers⟩ := (Option.any_eq_true _ _).mp h
  rw [Bool.and_eq_true, decide_eq_true_eq, decide_eq_true_eq] at hoffers
  have hoffered := offered_lockingRound hoffers.1 hoffers.2
  have hsnapshots : Snapshots planHost parent fun _ => lockingRound plan := by
    intro n plan' hplan
    obtain rfl := Option.some.inj (Except.ok.inj hplan)
    refine ⟨[first, second], fun c hc => ?_, hderive⟩
    rcases List.mem_pair.mp hc with rfl | rfl <;> assumption
  refine ⟨parent, _, hparent, (slice_loop_funds_once hparent hsnapshots).mpr ?_, ?_⟩
  · -- The second round offers the child of the first one, so no run gets past two rounds.
    intro n hproceeds i hi
    exact absurd rfl (hproceeds.advances i hi)
  · have hproceeds : Proceeds (fun _ => lockingRound plan) 1 :=
      ⟨fun m _ => ⟨Option.isSome_iff_exists.mpr ⟨_, hoffered⟩, rfl⟩, fun m hm => by omega⟩
    have hresult := loopAfter_running_iff.mpr hproceeds
    have hrunning := running_of_result_none hresult
    rw [loopAfter_succ_of_running hresult]
    rcases (loopAfter (fun _ => lockingRound plan) 1).iterate_cases (lockingRound plan) with
      ⟨-, -, hfunded⟩ | ⟨id, hid, hlast, -⟩
    · have hmap := hrunning.funded
      rw [hfunded]
      apply List.map_injective_iff.mpr (Option.some_injective String)
      rw [hmap, List.range_one, List.map_singleton, List.map_singleton, hoffered]
    · exact absurd (hid.symm.trans (hrunning.last 0 rfl).symm) hlast

def alternating (first second : PlanState) (n : ℕ) : SliceRound :=
  lockingRound (if n % 2 = 0 then first else second)

/-- A stale state of the plan, handed out in turn with the current one, has the first child funded
again, and the loop goes on for ever. -/
theorem stale_snapshot_funds_again : ∃ parent rounds, Reached planHost parent ∧
    Snapshots planHost parent rounds ∧
      (loopAfter rounds 3).fundedIds = [sampleChildId 0, sampleChildId 1, sampleChildId 0] ∧
      ∀ n, (loopAfter rounds n).result = none := by
  have hrun : (sampleParent.any fun parent => (sampleChild 0 []).any fun first =>
      (sampleChild 0 sampleChildDone).any fun done => (sampleChild 1 []).any fun second =>
        (derivePlanState planHost parent [first, second]).toOption.any fun stale =>
          (derivePlanState planHost parent [done, second]).toOption.any fun current =>
            stale.any fun stale => current.any fun current =>
              stale.nextSafeAction = .fundActiveChild
                && stale.activeRow.map PlanRow.id = some (sampleChildId 0)
                && current.nextSafeAction = .fundActiveChild
                && current.activeRow.map PlanRow.id = some (sampleChildId 1)) = true := by
    decide +kernel
  obtain ⟨parent, hparent, h⟩ := (Option.any_eq_true _ _).mp hrun
  obtain ⟨first, hfirst, h⟩ := (Option.any_eq_true _ _).mp h
  obtain ⟨done, hdone, h⟩ := (Option.any_eq_true _ _).mp h
  obtain ⟨second, hsecond, h⟩ := (Option.any_eq_true _ _).mp h
  obtain ⟨_, hstale, h⟩ := exists_ok_of_any h
  obtain ⟨_, hcurrent, h⟩ := exists_ok_of_any h
  obtain ⟨stale, rfl, hstates⟩ := (Option.any_eq_true _ _).mp h
  obtain ⟨current, rfl, hoffers⟩ := (Option.any_eq_true _ _).mp hstates
  simp only [Bool.and_eq_true, decide_eq_true_eq] at hoffers
  obtain ⟨⟨⟨hfundStale, hstaleId⟩, hfundCurrent⟩, hcurrentId⟩ := hoffers
  have hoffered (n : ℕ) : (alternating stale current n).offered
      = some (sampleChildId (n % 2)) := by
    rcases Nat.mod_two_eq_zero_or_one n with heven | hodd
    · rw [alternating, if_pos heven, heven]
      exact offered_lockingRound hfundStale hstaleId
    · rw [alternating, if_neg (by omega), hodd]
      exact offered_lockingRound hfundCurrent hcurrentId
  have hproceeds (n : ℕ) : Proceeds (alternating stale current) n := by
    refine ⟨fun m _ => ⟨Option.isSome_iff_exists.mpr ⟨_, hoffered m⟩, rfl⟩, fun m _ heq => ?_⟩
    rw [hoffered, hoffered, Option.some.injEq] at heq
    rcases Nat.mod_two_eq_zero_or_one m with heven | hodd
    · rw [heven, show (m + 1) % 2 = 1 by omega] at heq
      exact absurd heq (by decide)
    · rw [hodd, show (m + 1) % 2 = 0 by omega] at heq
      exact absurd heq (by decide)
  have hresult (n : ℕ) := loopAfter_running_iff.mpr (hproceeds n)
  refine ⟨parent, alternating stale current, liveTrade_reached planHost hparent, ?_, ?_, hresult⟩
  · intro n plan hplan
    have hplan : (if n % 2 = 0 then stale else current) = plan :=
      Option.some.inj (Except.ok.inj hplan)
    rcases Nat.mod_two_eq_zero_or_one n with heven | hodd
    · rw [if_pos heven] at hplan
      subst hplan
      refine ⟨[first, second], fun c hc => ?_, hstale⟩
      rcases List.mem_pair.mp hc with rfl | rfl <;> exact samplePlanChild_reached (by assumption)
    · rw [if_neg (by omega)] at hplan
      subst hplan
      refine ⟨[done, second], fun c hc => ?_, hcurrent⟩
      rcases List.mem_pair.mp hc with rfl | rfl <;> exact samplePlanChild_reached (by assumption)
  · have hmap := (running_of_result_none (hresult 3)).funded
    simp only [hoffered] at hmap
    exact List.map_injective_iff.mpr (Option.some_injective String) hmap

end ChamaEscrow
