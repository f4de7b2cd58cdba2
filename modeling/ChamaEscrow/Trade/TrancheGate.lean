import ChamaEscrow.Js.Rounding
import ChamaEscrow.Library.Ranked
import ChamaEscrow.Trade.Votes
import Mathlib.Data.List.Perm.Subperm

/-!
# The gate between tranches

`trancheGate` (`tranche.ts`) decides whether the exposed party of a trade in tranches may start the
next one.  It goes through the positions of the plan and stops at the first whose tranche is not
settled: it lets the party proceed when no trade is published at that position, and refuses when one
is and has failed, is under way, or was completed without a credit in the party's own wallet.

* `trancheAt_eq`: the tranche at a position is the first of those that are furthest along.
* `trancheGate_proceeds_iff`: when the gate lets the party proceed.
* `trancheGate_fails_closed`: it never does so past a tranche that is not settled, unless that
  tranche lies behind a position that was left out.
* `trancheGate_agrees`: the decision does not depend on the order of the trades, unless two of them
  are completed at one position, one with a credit and one without.
-/

namespace ChamaEscrow

open Js Library

/-! ### The tranches of a plan -/

inductive TrancheOutcome
  | pending
  | live
  | settled
  | unproven
  | failed
  deriving DecidableEq

/-- `ref.planId === planId`, for a trade that has a `tranche` at all. -/
def inPlan (planId : String) (s : EscrowState) : Bool :=
  s.tranche.truthy && (s.tranche.member "planId").isText planId

/-- `ref.index`. -/
def trancheIndex (s : EscrowState) : JsValue := s.tranche.member "index"

/-- Whether a value is the position `i` of a plan. -/
def isPosition (i : ℕ) (v : JsValue) : Bool := v.number?.bind JsNumber.toNat? = some i

def statusRank : EscrowStatus → ℕ
  | .completed => 5
  | .expired | .cancelled => 4
  | .claimed => 3
  | .approved => 2
  | .locked => 1
  | .created => 0

/-- How far along a trade is. -/
def EscrowState.rank (s : EscrowState) : ℕ := statusRank s.status

/-- Whether two trades have one key in the map by index. -/
def sameIndex (s t : EscrowState) : Bool := (trancheIndex s).strictEq (trancheIndex t)

/-- `a[0] - b[0]` is not positive; an index that is no number counts as `NaN`. -/
def indexLe (s t : EscrowState) : Bool :=
  !(0 < (trancheIndex s).number?.getD .nan - (trancheIndex t).number?.getD .nan)

def tranchesForPlan (planId : String) (states : List EscrowState) : List EscrowState :=
  (collect EscrowState.rank sameIndex (states.filter (inPlan planId))).insertionSort
    fun s t => indexLe s t = true

def trancheOutcome (state : Option EscrowState) (creditObserved : Bool) : TrancheOutcome :=
  match state with
  | none => .pending
  | some s =>
    if s.status = .cancelled ∨ s.status = .expired then .failed
    else if s.status ≠ .completed then .live
    else if creditObserved then .settled else .unproven

/-! ### The gate -/

structure TrancheGate where
  canProceed : Bool
  nextIndex : Option ℕ
  settled : ℕ
  total : JsNumber
  stopped : Bool
  deriving DecidableEq

/-- The loop of `trancheGate` from position `i` on, for the outcomes at the positions. -/
def gateFrom (outcomeAt : ℕ → TrancheOutcome) (total : JsNumber) :
    (fuel : ℕ) → (i settled : ℕ) → TrancheGate
  | 0, _, settled => ⟨false, none, settled, total, false⟩
  | fuel + 1, i, settled =>
    if JsNumber.ofInt i < total then
      match outcomeAt i with
      | .settled => gateFrom outcomeAt total fuel (i + 1) (settled + 1)
      | .pending => ⟨true, some i, settled, total, false⟩
      | .live => ⟨false, none, settled, total, false⟩
      | .unproven | .failed => ⟨false, none, settled, total, true⟩
    else ⟨false, none, settled, total, false⟩

/-- What `trancheGate` is asked. -/
structure GateParams where
  planId : String
  total : JsNumber
  states : List EscrowState
  creditObserved : EscrowState → Bool

namespace GateParams

/-- The tranches of the plan. -/
def found (p : GateParams) : List EscrowState := tranchesForPlan p.planId p.states

/-- `byIndex.get(i)`: the last of the tranches under the index. -/
def trancheAt (p : GateParams) (i : ℕ) : Option EscrowState :=
  p.found.reverse.find? fun s => isPosition i (trancheIndex s)

def outcomeAt (p : GateParams) (i : ℕ) : TrancheOutcome :=
  trancheOutcome (p.trancheAt i) ((p.trancheAt i).any p.creditObserved)

end GateParams

/-- `trancheGate`.  A position that settles has a tranche of its own, so that the loop ends within
one round more than there are tranches (`gateFrom_of_le`). -/
def trancheGate (p : GateParams) : TrancheGate :=
  gateFrom p.outcomeAt p.total (p.found.length + 1) 0 0

/-! ### What is found at a position -/

theorem isPosition_iff {i : ℕ} {v : JsValue} :
    isPosition i v = true ↔ v = .num (.fin ((i : ℕ) : ℚ)) := by
  unfold isPosition
  rw [decide_eq_true_eq]
  constructor
  · intro h
    obtain ⟨n, hn, hi⟩ := Option.bind_eq_some_iff.mp h
    rw [JsNumber.toNat?_eq_some hi] at hn
    cases v <;> simp_all [JsValue.number?]
  · rintro rfl
    simp [JsValue.number?, JsNumber.toNat?]

theorem isKey_position (i : ℕ) :
    IsKey sameIndex fun s => isPosition i (trancheIndex s) := by
  have hself : (JsValue.num (.fin (i : ℚ))).strictEq (.num (.fin (i : ℚ))) = true := by
    simp [JsValue.strictEq, JsNumber.strictEq]
  constructor
  · intro a b ha
    rw [isPosition_iff] at ha
    rw [Bool.eq_iff_iff, isPosition_iff, sameIndex, ha]
    constructor
    · intro h
      cases hb : trancheIndex b with
      | num n =>
        rw [hb] at h
        simp only [JsValue.strictEq, JsNumber.strictEq, Bool.and_eq_true, decide_eq_true_eq] at h
        rw [h.2]
      | _ => rw [hb] at h; cases h
    · intro h
      rw [h, hself]
  · intro a b ha hsame
    by_contra hb
    rw [Bool.not_eq_false, isPosition_iff] at hb
    rw [sameIndex, hb] at hsame
    refine Bool.eq_false_iff.mp ha ?_
    rw [isPosition_iff]
    cases hindex : trancheIndex a with
    | num n =>
      rw [hindex] at hsame
      simp only [JsValue.strictEq, JsNumber.strictEq, Bool.and_eq_true, decide_eq_true_eq] at hsame
      rw [← hsame.2]
    | _ => rw [hindex] at hsame; cases hsame

namespace GateParams

variable {p p' : GateParams} {i j k : ℕ} {s t : EscrowState}

def published (p : GateParams) (i : ℕ) : List EscrowState :=
  (p.states.filter (inPlan p.planId)).filter fun s => isPosition i (trancheIndex s)

theorem mem_published : s ∈ p.published i ↔
    s ∈ p.states ∧ inPlan p.planId s = true ∧ isPosition i (trancheIndex s) = true := by
  rw [published, List.mem_filter, List.mem_filter, and_assoc]

theorem trancheAt_eq (p : GateParams) (i : ℕ) :
    p.trancheAt i = best EscrowState.rank (p.published i) := by
  have hfilter := @filter_collect _ EscrowState.rank _ _ (isKey_position i)
    (p.states.filter (inPlan p.planId))
  have hperm := (List.perm_insertionSort (fun s t => indexLe s t = true)
    (collect EscrowState.rank sameIndex (p.states.filter (inPlan p.planId)))).filter
      fun s => isPosition i (trancheIndex s)
  rw [hfilter] at hperm
  have hfound : p.found.filter (fun s => isPosition i (trancheIndex s))
      = (best EscrowState.rank (p.published i)).toList := by
    cases hbest : best EscrowState.rank (p.published i) with
    | none =>
      rw [published] at hbest
      rw [hbest] at hperm
      exact hperm.eq_nil
    | some b =>
      rw [published] at hbest
      rw [hbest] at hperm
      exact List.perm_singleton.mp hperm
  rw [trancheAt, ← List.head?_filter, List.filter_reverse, hfound]
  cases best EscrowState.rank (p.published i) <;> rfl

theorem trancheAt_eq_none : p.trancheAt i = none ↔ p.published i = [] := by
  rw [trancheAt_eq, best_eq_none]

theorem mem_found_of_trancheAt (h : p.trancheAt i = some s) :
    s ∈ p.found ∧ isPosition i (trancheIndex s) = true :=
  ⟨List.mem_reverse.mp (List.mem_of_find?_eq_some h), by simpa using List.find?_some h⟩

end GateParams

/-! ### Outcomes -/

variable {state : Option EscrowState}

theorem trancheOutcome_eq_pending {credit : Bool} :
    trancheOutcome state credit = .pending ↔ state = none := by
  unfold trancheOutcome
  split
  · exact iff_of_true rfl rfl
  · split_ifs <;> exact iff_of_false (fun h => by cases h) (fun h => by cases h)

theorem trancheOutcome_eq_settled {credit : Bool} :
    trancheOutcome state credit = .settled ↔
      ∃ s, state = some s ∧ s.status = .completed ∧ credit = true := by
  unfold trancheOutcome
  split
  · exact iff_of_false (fun h => by cases h) (by rintro ⟨s, ⟨⟩, -⟩)
  rename_i s
  split_ifs with hfailed hlive hcredit
  · refine iff_of_false (fun h => by cases h) ?_
    rintro ⟨_, ⟨⟩, hcompleted, -⟩
    rw [hcompleted] at hfailed
    rcases hfailed with h | h <;> cases h
  · refine iff_of_false (fun h => by cases h) ?_
    rintro ⟨_, ⟨⟩, hcompleted, -⟩
    exact hlive hcompleted
  · exact iff_of_true rfl ⟨s, rfl, not_not.mp hlive, hcredit⟩
  · refine iff_of_false (fun h => by cases h) ?_
    rintro ⟨_, ⟨⟩, -, h⟩
    exact hcredit h

theorem rank_le_completed {s : EscrowState} (h : s.status = .completed) (t : EscrowState) :
    t.rank ≤ s.rank := by
  rw [EscrowState.rank, EscrowState.rank, h]
  cases t.status <;> decide

theorem completed_of_rank_le {s t : EscrowState} (h : s.status = .completed)
    (hle : s.rank ≤ t.rank) : t.status = .completed := by
  rw [EscrowState.rank, EscrowState.rank, h] at hle
  cases ht : t.status with
  | completed => rfl
  | _ => rw [ht] at hle; exact absurd hle (by decide)

namespace GateParams

variable {p p' : GateParams} {i j k : ℕ} {s t : EscrowState}

theorem outcomeAt_eq_pending : p.outcomeAt i = .pending ↔ p.published i = [] := by
  rw [outcomeAt, trancheOutcome_eq_pending, trancheAt_eq_none]

theorem outcomeAt_eq_settled : p.outcomeAt i = .settled ↔
    ∃ s, p.trancheAt i = some s ∧ s.status = .completed ∧ p.creditObserved s = true := by
  rw [outcomeAt, trancheOutcome_eq_settled]
  constructor
  · rintro ⟨s, hs, hcompleted, hcredit⟩
    rw [hs, Option.any_some] at hcredit
    exact ⟨s, hs, hcompleted, hcredit⟩
  · rintro ⟨s, hs, hcompleted, hcredit⟩
    exact ⟨s, hs, hcompleted, by rwa [hs, Option.any_some]⟩

theorem le_length_of_settled (h : ∀ j < k, p.outcomeAt j = .settled) : k ≤ p.found.length := by
  have hsubset : (List.range k).map (fun j : ℕ => JsValue.num (.fin (j : ℚ)))
      ⊆ p.found.map trancheIndex := by
    intro v hv
    obtain ⟨j, hj, rfl⟩ := List.mem_map.mp hv
    obtain ⟨s, hs, -, -⟩ := outcomeAt_eq_settled.mp (h j (List.mem_range.mp hj))
    obtain ⟨hmem, hposition⟩ := mem_found_of_trancheAt hs
    exact List.mem_map.mpr ⟨s, hmem, isPosition_iff.mp hposition⟩
  have hnodup : ((List.range k).map fun j : ℕ => JsValue.num (.fin (j : ℚ))).Nodup := by
    refine (List.nodup_range).map fun i j hij => ?_
    simpa using hij
  have hle := (List.subperm_of_subset hnodup hsubset).length_le
  rwa [List.length_map, List.length_map, List.length_range] at hle

end GateParams

/-! ### What the gate decides -/

variable {outcomeAt : ℕ → TrancheOutcome}

/-- The loop lets the party proceed at the first position that is not settled, when no trade is
published there. -/
theorem gateFrom_proceeds {total : JsNumber} {fuel i settled k : ℕ} :
    ((gateFrom outcomeAt total fuel i settled).canProceed = true
        ∧ (gateFrom outcomeAt total fuel i settled).nextIndex = some k) ↔
      i ≤ k ∧ k < i + fuel ∧ JsNumber.ofInt k < total ∧ outcomeAt k = .pending ∧
        ∀ j, i ≤ j → j < k → outcomeAt j = .settled := by
  induction fuel generalizing i settled with
  | zero =>
    rw [gateFrom]
    exact iff_of_false (fun h => Bool.false_ne_true h.1) (by rintro ⟨hle, hlt, -⟩; omega)
  | succ fuel ih =>
    rw [gateFrom]
    by_cases htotal : JsNumber.ofInt i < total
    · rw [if_pos htotal]
      cases houtcome : outcomeAt i with
      | settled =>
        dsimp only
        rw [ih]
        constructor
        · rintro ⟨hle, hlt, hrest, hpending, hall⟩
          refine ⟨by omega, by omega, hrest, hpending, fun j hj hjk => ?_⟩
          rcases hj.lt_or_eq with hj | rfl
          · exact hall j hj hjk
          · exact houtcome
        · rintro ⟨hle, hlt, hrest, hpending, hall⟩
          have hne : i ≠ k := by
            rintro rfl
            rw [houtcome] at hpending
            cases hpending
          exact ⟨by omega, by omega, hrest, hpending, fun j hj => hall j (by omega)⟩
      | pending =>
        dsimp only
        constructor
        · rintro ⟨-, hk⟩
          cases hk
          exact ⟨le_rfl, by omega, htotal, houtcome, fun j hj hji => by omega⟩
        · rintro ⟨hle, -, -, -, hall⟩
          rcases hle.lt_or_eq with hlt | rfl
          · have := hall i le_rfl hlt
            rw [houtcome] at this
            cases this
          · exact ⟨rfl, rfl⟩
      | _ =>
        refine iff_of_false (fun h => Bool.false_ne_true h.1) ?_
        rintro ⟨hle, -, -, hpending, hall⟩
        rcases hle.lt_or_eq with hlt | rfl
        · have := hall i le_rfl hlt
          rw [houtcome] at this
          cases this
        · rw [houtcome] at hpending
          cases hpending
    · rw [if_neg htotal]
      refine iff_of_false (fun h => Bool.false_ne_true h.1) ?_
      rintro ⟨hle, -, hk, -⟩
      refine htotal (JsNumber.lt_of_le_of_lt (JsNumber.ofRat_mono ?_) hk)
      exact_mod_cast hle

theorem gateFrom_nextIndex {total : JsNumber} {fuel i settled : ℕ} :
    (gateFrom outcomeAt total fuel i settled).canProceed
      = (gateFrom outcomeAt total fuel i settled).nextIndex.isSome := by
  induction fuel generalizing i settled with
  | zero => rfl
  | succ fuel ih =>
    rw [gateFrom]
    split_ifs
    · split <;> first | exact ih | rfl
    · rfl

/-- More rounds change nothing: the loop has come to its end. -/
theorem gateFrom_of_le {p : GateParams} {fuel : ℕ} (h : p.found.length + 1 ≤ fuel) :
    gateFrom p.outcomeAt p.total fuel 0 0 = trancheGate p := by
  have hstable (n i settled : ℕ) (hn : p.found.length + 1 ≤ i + n)
      (hall : ∀ j < i, p.outcomeAt j = .settled) :
      gateFrom p.outcomeAt p.total (n + 1) i settled
        = gateFrom p.outcomeAt p.total n i settled := by
    induction n generalizing i settled with
    | zero =>
      have := GateParams.le_length_of_settled hall
      omega
    | succ n ih =>
      conv_lhs => rw [gateFrom]
      conv_rhs => rw [gateFrom]
      split_ifs
      · cases houtcome : p.outcomeAt i with
        | settled =>
          refine ih (i + 1) (settled + 1) (by omega) fun j hj => ?_
          rcases (Nat.lt_succ_iff.mp hj).lt_or_eq with hj | rfl
          · exact hall j hj
          · exact houtcome
        | _ => rfl
      · rfl
  induction fuel, h using Nat.le_induction with
  | base => rfl
  | succ n hn ih =>
    rw [← ih]
    exact hstable n 0 0 (by omega) (fun j hj => absurd hj (Nat.not_lt_zero j))

namespace GateParams

variable {p p' : GateParams} {i j k : ℕ} {s t : EscrowState}

structure Proceeds (p : GateParams) (k : ℕ) : Prop where
  below : JsNumber.ofInt k < p.total
  absent : p.published k = []
  settled : ∀ j < k, p.outcomeAt j = .settled

theorem trancheGate_proceeds_iff :
    ((trancheGate p).canProceed = true ∧ (trancheGate p).nextIndex = some k) ↔ p.Proceeds k := by
  rw [trancheGate, gateFrom_proceeds]
  constructor
  · rintro ⟨-, -, hbelow, hpending, hall⟩
    exact ⟨hbelow, outcomeAt_eq_pending.mp hpending, fun j hj => hall j (Nat.zero_le j) hj⟩
  · rintro ⟨hbelow, habsent, hall⟩
    have hle := le_length_of_settled hall
    exact ⟨Nat.zero_le k, by omega, hbelow, outcomeAt_eq_pending.mpr habsent,
      fun j _ hj => hall j hj⟩

theorem trancheGate_nextIndex :
    (trancheGate p).canProceed = (trancheGate p).nextIndex.isSome := gateFrom_nextIndex

/-! ### Closed failures -/

/-- What a closed gate lets the party proceed past: at the position `k`, tranches that were all
completed with a credit before it, and none anywhere that is under way, unproven or failed. -/
structure Closed (p : GateParams) (k : ℕ) : Prop where
  before : ∀ j < k, ∃ s ∈ p.found, isPosition j (trancheIndex s) = true ∧
    s.status = .completed ∧ p.creditObserved s = true
  elsewhere : ∀ s ∈ p.found, trancheOutcome (some s) (p.creditObserved s) ≠ .live ∧
    trancheOutcome (some s) (p.creditObserved s) ≠ .unproven ∧
      trancheOutcome (some s) (p.creditObserved s) ≠ .failed

/-- Every position is settled up to one that was left out, and the plan has a tranche that is
not. -/
def UnsettledBehindGap (p : GateParams) : Prop :=
  ∃ k, p.Proceeds k ∧ ∃ s ∈ p.found, trancheOutcome (some s) (p.creditObserved s) ≠ .settled

theorem ne_settled_iff (s : EscrowState) (credit : Bool) :
    trancheOutcome (some s) credit ≠ .settled ↔ ¬ (trancheOutcome (some s) credit ≠ .live ∧
      trancheOutcome (some s) credit ≠ .unproven ∧ trancheOutcome (some s) credit ≠ .failed) := by
  have hpublished : trancheOutcome (some s) credit ≠ .pending := by
    rw [Ne, trancheOutcome_eq_pending]
    exact Option.some_ne_none s
  cases h : trancheOutcome (some s) credit with
  | pending => exact absurd h hpublished
  | _ => decide

/-- The gate lets the party proceed past settled tranches only, unless a tranche that is not settled
lies behind the first position that was left out. -/
theorem trancheGate_fails_closed (p : GateParams) :
    (∀ k, (trancheGate p).canProceed = true → (trancheGate p).nextIndex = some k → p.Closed k) ↔
      ¬ p.UnsettledBehindGap := by
  constructor
  · rintro hclosed ⟨k, hproceeds, s, hs, hunsettled⟩
    obtain ⟨hcan, hnext⟩ := trancheGate_proceeds_iff.mpr hproceeds
    exact (ne_settled_iff s _).mp hunsettled ((hclosed k hcan hnext).elsewhere s hs)
  · intro hno k hcan hnext
    have hproceeds := trancheGate_proceeds_iff.mp ⟨hcan, hnext⟩
    constructor
    · intro j hj
      obtain ⟨s, hs, hcompleted, hcredit⟩ := outcomeAt_eq_settled.mp (hproceeds.settled j hj)
      obtain ⟨hmem, hposition⟩ := mem_found_of_trancheAt hs
      exact ⟨s, hmem, hposition, hcompleted, hcredit⟩
    · intro s hs
      by_contra hbad
      exact hno ⟨k, hproceeds, s, hs, (ne_settled_iff s _).mpr hbad⟩

end GateParams

/-! ### Sample tranches -/

def trancheCreate (escrowId : String) (index : ℕ) : ParsedEscrowEvent where
  raw := sampleCreate.raw
  escrowId
  payload := .create {
    description := "coins"
    amountMsats := 1000000
    category := "p2p-trade"
    mintUrl := "https://mint"
    platformFeeBps := 0
    platformFeePubkey := hexKey 'd'
    expirySeconds := 3600
    communityArbiters := .arr [.str (hexKey 'c')]
    tranche := .obj [("planId", .str "plan"), ("index", .num (.ofInt index)), ("total", .num 2),
      ("totalMsats", .num 2000000)]
    createdAt := 1800000000 }

def trancheTrade (escrowId : String) (index : ℕ) (events : List ParsedEscrowEvent) :
    Option EscrowState :=
  liveTrade silentHost (trancheCreate escrowId index)
    (events.map fun e => { e with escrowId })

def completedEvents : List ParsedEscrowEvent := fundedEvents ++
  [sampleResolve 1800000050 .release, sampleClaim, sampleEvent 'e' 'b' 1800000070 (.complete {
    completedAt := 1800000070 })]

/-- The second tranche is published and the first is not: the gate lets the party start the
first. -/
theorem gate_before_live_tranche : ∃ p : GateParams, (∀ s ∈ p.states, Reached silentHost s) ∧
    (trancheGate p).canProceed = true ∧ (trancheGate p).nextIndex = some 0 ∧ ¬ p.Closed 0 := by
  have hrun : (trancheTrade "sm_second" 1 [sampleJoin]).any (fun s =>
      let p : GateParams := ⟨"plan", 2, [s], fun _ => true⟩
      (trancheGate p).canProceed && (trancheGate p).nextIndex = some 0 &&
        p.found.any fun t => trancheOutcome (some t) true = .live) = true := by
    decide +kernel
  obtain ⟨s, hs, h⟩ := (Option.any_eq_true _ _).mp hrun
  simp only [Bool.and_eq_true, decide_eq_true_eq, List.any_eq_true] at h
  obtain ⟨⟨hcan, hnext⟩, t, ht, hlive⟩ := h
  refine ⟨_, ?_, hcan, hnext, fun hclosed => (hclosed.elsewhere t ht).1 hlive⟩
  exact fun s' hs' => List.mem_singleton.mp hs' ▸ liveTrade_reached silentHost hs

namespace GateParams

variable {p p' : GateParams} {i j k : ℕ} {s t : EscrowState}

/-! ### The order of the trades -/

def SameTrades (states states' : List EscrowState) : Prop := ∀ s, s ∈ states' ↔ s ∈ states

/-- All positions up to one that was left out have a trade that was completed with a credit, and one
of them has another that was completed without. -/
def CreditsDiffer (p : GateParams) : Prop :=
  ∃ k : ℕ, JsNumber.ofInt k < p.total ∧ p.published k = [] ∧
    (∀ j < k, ∃ s ∈ p.published j, s.status = .completed ∧ p.creditObserved s = true) ∧
      ∃ j < k, ∃ s ∈ p.published j, s.status = .completed ∧ p.creditObserved s = false

variable {states' : List EscrowState}

theorem published_congr (h : SameTrades p.states states') :
    s ∈ ({ p with states := states' } : GateParams).published i ↔ s ∈ p.published i := by
  rw [mem_published, mem_published]
  exact and_congr_left' (h s)

theorem published_eq_nil_congr (h : SameTrades p.states states') :
    ({ p with states := states' } : GateParams).published i = [] ↔ p.published i = [] := by
  rw [List.eq_nil_iff_forall_not_mem, List.eq_nil_iff_forall_not_mem]
  exact forall_congr' fun s => not_congr (published_congr h)

theorem trancheAt_of_completed (h : s ∈ p.published i) (hcompleted : s.status = .completed) :
    ∃ t ∈ p.published i, p.trancheAt i = some t ∧ t.status = .completed := by
  cases hat : p.trancheAt i with
  | none => exact absurd (trancheAt_eq_none.mp hat) (List.ne_nil_of_mem h)
  | some t =>
    rw [trancheAt_eq] at hat
    obtain ⟨hmem, hrank⟩ := best_spec hat
    exact ⟨t, hmem, rfl, completed_of_rank_le hcompleted (hrank s h)⟩

theorem Proceeds.congr (hsame : SameTrades p.states states')
    (hno : ¬ p.CreditsDiffer) (h : p.Proceeds k) :
    ({ p with states := states' } : GateParams).Proceeds k := by
  have hcredited (j : ℕ) (hj : j < k) :
      ∃ s ∈ p.published j, s.status = .completed ∧ p.creditObserved s = true := by
    obtain ⟨s, hs, hcompleted, hcredit⟩ := outcomeAt_eq_settled.mp (h.settled j hj)
    rw [trancheAt_eq] at hs
    exact ⟨s, (best_spec hs).1, hcompleted, hcredit⟩
  refine ⟨h.below, (published_eq_nil_congr hsame).mpr h.absent, fun j hj => ?_⟩
  obtain ⟨s, hs, hcompleted, -⟩ := hcredited j hj
  obtain ⟨t, ht, hat, htCompleted⟩ :=
    trancheAt_of_completed ((published_congr hsame).mpr hs) hcompleted
  refine outcomeAt_eq_settled.mpr ⟨t, hat, htCompleted, ?_⟩
  by_contra hcredit
  exact hno ⟨k, h.below, h.absent, hcredited, j, hj, t, (published_congr hsame).mp ht,
    htCompleted, Bool.eq_false_iff.mpr hcredit⟩

def preferring (p : GateParams) (test : EscrowState → Bool) : List EscrowState :=
  p.states.filter test ++ p.states.filter fun s => !test s

theorem preferring_perm (p : GateParams) (test : EscrowState → Bool) :
    (p.preferring test).Perm p.states := List.filter_append_perm test p.states

theorem trancheAt_preferring {test : EscrowState → Bool} (hs : s ∈ p.published i)
    (htest : test s = true) (hcompleted : ∀ t, test t = true → t.status = .completed) :
    ∃ t, ({ p with states := p.preferring test } : GateParams).trancheAt i = some t ∧
      test t = true := by
  set q : GateParams := { p with states := p.preferring test } with hq
  obtain ⟨hmem, hplan, hposition⟩ := mem_published.mp hs
  have hsplit : q.published i = (p.published i).filter test ++ (p.published i).filter
      fun t => !test t := by
    simp only [hq, published, preferring, List.filter_append, List.filter_filter, Bool.and_comm,
      Bool.and_assoc]
  have hpreferred : s ∈ (p.published i).filter test := List.mem_filter.mpr ⟨hs, htest⟩
  obtain ⟨t, rest, hcons⟩ := List.exists_cons_of_ne_nil (List.ne_nil_of_mem hpreferred)
  have ht : test t = true := by
    have : t ∈ (p.published i).filter test := hcons ▸ List.mem_cons_self
    exact (List.mem_filter.mp this).2
  refine ⟨t, ?_, ht⟩
  rw [trancheAt_eq, hsplit, hcons, List.cons_append]
  exact best_of_top (fun b => rank_le_completed (hcompleted t ht) b) _

/-- The gate decides the same for every list of the same trades, unless up to the first position
that was left out credits differ. -/
theorem trancheGate_agrees (p : GateParams) :
    (∀ states', SameTrades p.states states' →
      (trancheGate { p with states := states' }).canProceed = (trancheGate p).canProceed ∧
        (trancheGate { p with states := states' }).nextIndex = (trancheGate p).nextIndex) ↔
      ¬ p.CreditsDiffer := by
  constructor
  · rintro hagree ⟨k, hbelow, habsent, hcredited, i, hi, t, ht, htCompleted, htCredit⟩
    set credited : EscrowState → Bool :=
      fun s => s.status = .completed && p.creditObserved s with hcreditedDef
    set bare : EscrowState → Bool :=
      fun s => s.status = .completed && !p.creditObserved s with hbareDef
    have hsameOf (test : EscrowState → Bool) : SameTrades p.states (p.preferring test) :=
      fun s => (p.preferring_perm test).mem_iff
    -- With the credited trades first, the gate lets the party proceed past all of them.
    have hproceeds : ({ p with states := p.preferring credited } : GateParams).Proceeds k := by
      refine ⟨hbelow, (published_eq_nil_congr (hsameOf _)).mpr habsent, fun j hj => ?_⟩
      obtain ⟨s, hs, hcompleted, hcredit⟩ := hcredited j hj
      obtain ⟨t, hat, htest⟩ := @trancheAt_preferring _ _ _ credited hs
        (by simp [hcreditedDef, hcompleted, hcredit]) (by simp +contextual [hcreditedDef])
      simp only [hcreditedDef, Bool.and_eq_true, decide_eq_true_eq] at htest
      exact outcomeAt_eq_settled.mpr ⟨t, hat, htest.1, htest.2⟩
    -- With the others first, it stops at the one without a credit.
    have hstops (k' : ℕ) : ¬ ({ p with states := p.preferring bare } : GateParams).Proceeds k' := by
      intro h
      have habsent' := (published_eq_nil_congr (hsameOf bare)).mp h.absent
      have hlt : i < k' := by
        by_contra hle
        rcases (not_lt.mp hle).lt_or_eq with hlt | rfl
        · obtain ⟨s, hs, -⟩ := hcredited k' (hlt.trans hi)
          exact absurd habsent' (List.ne_nil_of_mem hs)
        · exact absurd habsent' (List.ne_nil_of_mem ht)
      obtain ⟨s, hat, htest⟩ := @trancheAt_preferring _ _ _ bare ht
        (by simp [hbareDef, htCompleted, htCredit]) (by simp +contextual [hbareDef])
      obtain ⟨s', hat', -, hcredit⟩ := outcomeAt_eq_settled.mp (h.settled i hlt)
      rw [hat] at hat'
      cases hat'
      simp only [hbareDef, Bool.and_eq_true, Bool.not_eq_true'] at htest
      exact Bool.false_ne_true (htest.2.symm.trans hcredit)
    obtain ⟨hcan, hnext⟩ := trancheGate_proceeds_iff.mpr hproceeds
    obtain ⟨hcanEq, hnextEq⟩ := hagree _ (hsameOf credited)
    obtain ⟨hcanEq', hnextEq'⟩ := hagree _ (hsameOf bare)
    exact hstops k (trancheGate_proceeds_iff.mp
      ⟨hcanEq'.trans (hcanEq.symm.trans hcan), hnextEq'.trans (hnextEq.symm.trans hnext)⟩)
  · intro hno states' hsame
    set q : GateParams := { p with states := states' } with hq
    have hsame' : SameTrades q.states p.states := fun s => (hsame s).symm
    have hback : ¬ q.CreditsDiffer := by
      rintro ⟨k, hbelow, habsent, hcredited, hbare⟩
      refine hno ⟨k, hbelow, (published_eq_nil_congr hsame).mp habsent, fun j hj => ?_, ?_⟩
      · obtain ⟨s, hs, hrest⟩ := hcredited j hj
        exact ⟨s, (published_congr hsame).mp hs, hrest⟩
      · obtain ⟨j, hj, s, hs, hrest⟩ := hbare
        exact ⟨j, hj, s, (published_congr hsame).mp hs, hrest⟩
    have hnext : (trancheGate q).nextIndex = (trancheGate p).nextIndex := by
      refine Option.ext fun k => ?_
      have hiff (r : GateParams) : (trancheGate r).nextIndex = some k ↔ r.Proceeds k := by
        rw [← trancheGate_proceeds_iff, trancheGate_nextIndex]
        exact ⟨fun h => ⟨by rw [h]; rfl, h⟩, fun h => h.2⟩
      rw [hiff, hiff]
      exact ⟨fun h => Proceeds.congr (p := q) hsame' hback h, fun h => h.congr hsame hno⟩
    exact ⟨by rw [trancheGate_nextIndex, trancheGate_nextIndex, hnext], hnext⟩

end GateParams

/-- Two completed trades of the first tranche, of which one was credited: the listing decides
whether the party may start the second. -/
theorem gate_by_listing : ∃ p : GateParams, (∀ s ∈ p.states, Reached silentHost s) ∧
    ∃ states', states'.Perm p.states ∧ (trancheGate p).canProceed = true ∧
      (trancheGate { p with states := states' }).canProceed = false := by
  have hrun : (trancheTrade "sm_first" 0 completedEvents).any (fun s =>
      (trancheTrade "sm_again" 0 completedEvents).any fun t =>
        let credit (s : EscrowState) : Bool := s.id = "sm_first"
        (trancheGate ⟨"plan", 2, [s, t], credit⟩).canProceed &&
          !(trancheGate ⟨"plan", 2, [t, s], credit⟩).canProceed) = true := by
    decide +kernel
  obtain ⟨s, hs, h⟩ := (Option.any_eq_true _ _).mp hrun
  obtain ⟨t, ht, h⟩ := (Option.any_eq_true _ _).mp h
  simp only [Bool.and_eq_true, Bool.not_eq_true'] at h
  refine ⟨_, ?_, [t, s], List.Perm.swap s t [], h.1, h.2⟩
  rintro s' hs'
  rcases List.mem_pair.mp hs' with rfl | rfl
  · exact liveTrade_reached silentHost hs
  · exact liveTrade_reached silentHost ht

end ChamaEscrow
