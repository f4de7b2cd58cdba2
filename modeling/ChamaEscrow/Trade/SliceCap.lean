import ChamaEscrow.Js.Rounding
import ChamaEscrow.Trade.Redelivery
import Mathlib.Algebra.Order.BigOperators.Group.List

/-!
# The slice cap of a plan

`slice-policy.ts` announces a hard ceiling on the amount of any slice of an ecash trade, whatever
the plan says.  The reducer checks a tranche against the cap that its own PLAN_START declares, if it
declares one, and never against the ceiling.

* `trancheSum_spec`: what the loop of `validatePlanStart` has checked when it ends, over the exact
  integers.
* `sliced_cap`: the ceiling holds along every run in which the header of each plan bounds its
  tranches (`BoundsTranches`); a header that does not leaves room for tranches above the ceiling,
  and the reducer accepts the same PLAN_START with them.
* `sliced_over_cap`: a sliced trade with one tranche of half as much again as the ceiling.
-/

namespace ChamaEscrow

open Js Library

variable {host : Host} {s s' : EscrowState} {e : ParsedEscrowEvent}

/-! ### The sum of a plan -/

def sliceCeiling : JsNumber := .ofInt maxSliceExposureMsats

theorem sliceCeiling_eq : sliceCeiling = .fin ((maxSliceExposureMsats : ℤ) : ℚ) :=
  JsNumber.ofInt_eq_fin (by decide)

def TrancheDescriptor.msats (t : TrancheDescriptor) : ℤ :=
  match t.amountMsats with
  | .fin q => q.num
  | _ => 0

/-- A tranche that the loop of `validatePlanStart` has passed. -/
structure TranchePassed (cap : Option JsNumber) (t : TrancheDescriptor) : Prop where
  amount : t.amountMsats = .fin (t.msats : ℚ)
  pos : 0 < t.msats
  capped : ∀ limit, cap = some limit → ¬ limit < t.amountMsats

variable {cap : Option JsNumber}

variable {t : TrancheDescriptor}

theorem tranchePassed_of_safe
    (hsafe : t.amountMsats.isSafeInteger = true) (hpos : ¬ t.amountMsats ≤ 0)
    (hcap : ¬ (cap.any fun limit => limit < t.amountMsats) = true) : TranchePassed cap t := by
  obtain ⟨z, -, hz⟩ := JsNumber.isSafeInteger_iff.mp hsafe
  have hmsats : t.msats = z := by
    unfold TrancheDescriptor.msats
    rw [hz]
    exact Rat.num_intCast z
  have hzero : (0 : JsNumber) = .fin ((0 : ℤ) : ℚ) := JsNumber.ofInt_eq_fin (by decide)
  refine ⟨by rw [hz, hmsats], ?_, fun limit hlimit => ?_⟩
  · rw [hz, hzero, JsNumber.intCast_le] at hpos
    omega
  · rw [hlimit, Option.any_some, decide_eq_true_eq] at hcap
    exact hcap

variable {ts : List TrancheDescriptor}

variable {index : ℕ}

theorem trancheSum_large {sum total : JsNumber} (hsum : .fin (JsNumber.maxExact : ℕ) ≤ sum)
    (h : trancheSum cap ts index sum = .ok total) : .fin (JsNumber.maxExact : ℕ) ≤ total := by
  induction ts generalizing index sum with
  | nil =>
    rw [trancheSum, Except.ok.injEq] at h
    exact h ▸ hsum
  | cons t ts ih =>
    rw [trancheSum] at h
    split_ifs at h with hbad hover
    obtain ⟨hindex, hrest⟩ := not_or.mp hbad
    obtain ⟨hsafe, hpos⟩ := not_or.mp hrest
    have hpassed := tranchePassed_of_safe (by simpa using hsafe) hpos hover
    refine ih ?_ h
    rw [hpassed.amount]
    exact JsNumber.le_add_of_nonneg hpassed.pos.le hsum

/-- The loop of `validatePlanStart`: every tranche is a positive integer below the declared cap, and
a total that is a safe integer is the exact sum. -/
theorem trancheSum_spec {x : ℤ}
    {total : JsNumber} (hx : 0 ≤ x) (h : trancheSum cap ts index (.fin x) = .ok total)
    (hsafe : total.isSafeInteger = true) :
    (∀ t ∈ ts, TranchePassed cap t) ∧
      total = .fin ((x + (ts.map TrancheDescriptor.msats).sum : ℤ) : ℚ) := by
  induction ts generalizing index x with
  | nil =>
    rw [trancheSum, Except.ok.injEq] at h
    exact ⟨by simp, by simp [← h]⟩
  | cons t ts ih =>
    rw [trancheSum] at h
    split_ifs at h with hbad hover
    obtain ⟨hindex, hrest⟩ := not_or.mp hbad
    obtain ⟨hwhole, hpos⟩ := not_or.mp hrest
    have hpassed := tranchePassed_of_safe (by simpa using hwhole) hpos hover
    have ht := hpassed.pos
    rw [hpassed.amount] at h
    -- A partial sum that was rounded would make the total unsafe.
    have hexact : (x + t.msats).natAbs ≤ JsNumber.maxExact := by
      by_contra hlarge
      have hle := trancheSum_large (JsNumber.maxExact_le_add (by omega)) h
      rw [JsNumber.not_safe_of_le hle] at hsafe
      cases hsafe
    rw [JsNumber.add_intCast hexact] at h
    obtain ⟨hall, htotal⟩ := ih (by omega) h
    refine ⟨List.forall_mem_cons.mpr ⟨hpassed, hall⟩, ?_⟩
    rw [htotal, List.map_cons, List.sum_cons, add_assoc]

/-- Each of some positive integers leaves one for every other of them. -/
theorem add_length_le_sum {l : List ℤ} (hpos : ∀ x ∈ l, 0 < x) {x : ℤ} (hx : x ∈ l) :
    x + l.length ≤ l.sum + 1 := by
  induction l with
  | nil => cases hx
  | cons y l ih =>
    obtain ⟨hy, hl⟩ := List.forall_mem_cons.mp hpos
    have hlength : (l.length : ℤ) ≤ l.sum := by
      clear ih hpos hx
      induction l with
      | nil => simp
      | cons z l ih =>
        obtain ⟨hz, hrest⟩ := List.forall_mem_cons.mp hl
        have := ih hrest
        simp only [List.length_cons, List.sum_cons]
        omega
    simp only [List.length_cons, List.sum_cons]
    rcases List.mem_cons.mp hx with rfl | hx
    · omega
    · have := ih hl hx
      omega

/-! ### Valid plans -/

structure PlanSums (p : PlanStartPayload) : Prop where
  passed : ∀ t ∈ p.tranches, TranchePassed p.sliceCapMsats t
  declared : ∀ limit, p.sliceCapMsats = some limit → ∃ z : ℤ, limit = .fin (z : ℚ)
  count : p.total = .fin ((p.tranches.length : ℤ) : ℚ)
  small : p.tranches.length ≤ 100
  some_tranche : 0 < p.tranches.length
  total : p.totalMsats = .fin (((p.tranches.map TrancheDescriptor.msats).sum : ℤ) : ℚ)
  safe : p.totalMsats.isSafeInteger = true

theorem length_bounds {n : ℕ} (hone : ¬ JsNumber.ofInt n < 1)
    (hhundred : ¬ 100 < JsNumber.ofInt n) :
    0 < n ∧ n ≤ 100 := by
  constructor
  · refine Nat.pos_of_ne_zero ?_
    rintro rfl
    exact hone (by decide +kernel)
  · by_contra hlarge
    refine hhundred (JsNumber.lt_of_lt_of_le (b := JsNumber.ofInt 101) (by decide +kernel) ?_)
    have hle : (101 : ℤ) ≤ n := by omega
    exact JsNumber.ofRat_mono (by exact_mod_cast hle)

variable {p : PlanStartPayload}

theorem planSums_of_valid (h : validatePlanStart p = none) : PlanSums p := by
  unfold validatePlanStart at h
  split_ifs at h with _ _ _ hcount hamount hlength _ hcap
  have hlengthEq : (JsNumber.ofInt p.tranches.length) = p.total := by
    have : (JsNumber.ofInt p.tranches.length).strictEq p.total = true := by simpa using hlength
    simpa [JsNumber.strictEq, JsNumber.ofInt_ne_nan] using this
  have hsafe : p.totalMsats.isSafeInteger = true := by
    have := (not_or.mp hamount).1
    simpa using this
  split at h
  · cases h
  rename_i sum hsum
  split_ifs at h with heq
  have htotal : sum = p.totalMsats := by
    have := heq
    simp only [JsNumber.strictEq, Bool.and_eq_true, decide_eq_true_eq] at this
    exact this.2
  have hzero : (0 : JsNumber) = .fin ((0 : ℤ) : ℚ) := JsNumber.ofInt_eq_fin (by decide)
  rw [htotal, hzero] at hsum
  obtain ⟨hpassed, hsumEq⟩ := trancheSum_spec le_rfl hsum hsafe
  rw [zero_add] at hsumEq
  have hrange := (not_or.mp hcount).2
  rw [← hlengthEq] at hrange
  obtain ⟨hpos, hsmall⟩ := length_bounds (not_or.mp hrange).1 (not_or.mp hrange).2
  have hcountEq : p.total = .fin ((p.tranches.length : ℤ) : ℚ) := by
    rw [← hlengthEq]
    exact JsNumber.ofInt_eq_fin (by rw [Int.natAbs_natCast, JsNumber.maxExact]; omega)
  have hdeclared (limit : JsNumber) (hlimit : p.sliceCapMsats = some limit) :
      ∃ z : ℤ, limit = .fin (z : ℚ) := by
    rw [hlimit, Option.any_some, Bool.or_eq_true, not_or] at hcap
    obtain ⟨z, -, hz⟩ := JsNumber.isSafeInteger_iff.mp (by simpa using hcap.1)
    exact ⟨z, hz⟩
  exact ⟨hpassed, hdeclared, hcountEq, hsmall, hpos, htotal ▸ hsumEq, hsafe⟩

/-- Whether the header of a plan bounds its tranches: it declares a cap that is no higher than the
ceiling, or its total leaves no tranche more than the ceiling when each of the others has its
msat. -/
def BoundsTranches (p : PlanStartPayload) : Prop :=
  (p.sliceCapMsats.any fun limit => limit ≤ sliceCeiling) = true
    ∨ p.totalMsats < sliceCeiling + p.total

instance (p : PlanStartPayload) : Decidable (BoundsTranches p) := inferInstanceAs
    (Decidable (_ ∨ _))

theorem ceiling_add_total (h : PlanSums p) : sliceCeiling + p.total =
    .fin (((maxSliceExposureMsats : ℤ) + p.tranches.length : ℤ) : ℚ) := by
  have hsmall := h.small
  rw [sliceCeiling_eq, h.count]
  refine JsNumber.add_intCast ?_
  rw [maxSliceExposureMsats, JsNumber.maxExact]
  omega

theorem PlanSums.le_ceiling (h : PlanSums p) (hbounds : BoundsTranches p)
    (ht : t ∈ p.tranches) : t.amountMsats ≤ sliceCeiling := by
  have hpassed := h.passed t ht
  rcases hbounds with hdeclared | htotal
  · obtain ⟨limit, hlimit, hle⟩ := (Option.any_eq_true _ _).mp hdeclared
    have hcapped := hpassed.capped limit hlimit
    rw [decide_eq_true_eq] at hle
    have hlimitNan : limit ≠ .nan := by
      rintro rfl
      cases hle
    have hamountNan : t.amountMsats ≠ .nan := by
      rw [hpassed.amount]
      exact JsNumber.noConfusion
    exact JsNumber.le_trans (JsNumber.le_of_not_lt hlimitNan hamountNan hcapped) hle
  · rw [ceiling_add_total h, h.total, JsNumber.intCast_lt] at htotal
    have hroom := add_length_le_sum (l := p.tranches.map TrancheDescriptor.msats)
      (x := t.msats) (by simpa using fun t ht => (h.passed t ht).pos) (List.mem_map_of_mem ht)
    rw [List.length_map] at hroom
    rw [hpassed.amount, sliceCeiling_eq, JsNumber.intCast_le]
    omega

/-! ### Lopsided plans -/

/-- An amount in `n` parts of at least one and at most `limit`, each as large as the parts after it
allow. -/
def lopsided (limit : ℤ) : (amount : ℤ) → (n : ℕ) → List ℤ
  | _, 0 => []
  | amount, n + 1 =>
    min limit (amount - n) :: lopsided limit (amount - min limit (amount - n)) n

@[simp]
theorem length_lopsided (limit amount : ℤ) (n : ℕ) : (lopsided limit amount n).length = n := by
  induction n generalizing amount with
  | zero => rfl
  | succ n ih => rw [lopsided, List.length_cons, ih]

theorem lopsided_spec {limit amount : ℤ} {n : ℕ} (hlow : n ≤ amount) (hhigh : amount ≤ n * limit) :
    (∀ x ∈ lopsided limit amount n, 0 < x ∧ x ≤ limit) ∧
        (lopsided limit amount n).sum = amount := by
  induction n generalizing amount with
  | zero =>
    push_cast at hlow hhigh
    refine ⟨by simp [lopsided], ?_⟩
    rw [lopsided, List.sum_nil]
    omega
  | succ n ih =>
    push_cast at hlow hhigh
    have hlimit : 1 ≤ limit := by nlinarith
    -- What the first part leaves is enough for the others and not too much for them.
    have hrest : (n : ℤ) ≤ amount - min limit (amount - n) := by omega
    have hroom : amount - min limit (amount - n) ≤ n * limit := by
      rcases min_choice limit (amount - n) with hmin | hmin
      · rw [hmin]
        linarith
      · rw [hmin]
        nlinarith
    obtain ⟨hparts, hsum⟩ := ih hrest hroom
    rw [lopsided]
    refine ⟨List.forall_mem_cons.mpr ⟨?_, hparts⟩, ?_⟩
    · omega
    · rw [List.sum_cons, hsum]
      ring

/-- The tranches of the amounts `l`, from position `index` on. -/
def tranchesFrom : (index : ℕ) → List ℤ → List TrancheDescriptor
  | _, [] => []
  | index, x :: l => ⟨.ofInt index, .fin (x : ℚ)⟩ :: tranchesFrom (index + 1) l

@[simp]
theorem length_tranchesFrom (index : ℕ) (l : List ℤ) :
    (tranchesFrom index l).length = l.length := by
  induction l generalizing index with
  | nil => rfl
  | cons x l ih => rw [tranchesFrom, List.length_cons, List.length_cons, ih]

/-- The loop of `validatePlanStart` accepts positive amounts below the cap, with their sum. -/
theorem trancheSum_tranchesFrom {l : List ℤ} {x : ℤ}
    (hx : 0 ≤ x) (hpos : ∀ y ∈ l, 0 < y) (hsum : (x + l.sum).natAbs < JsNumber.maxExact)
    (hcap : ∀ y ∈ l, ∀ limit, cap = some limit → ¬ limit < .fin (y : ℚ)) :
    trancheSum cap (tranchesFrom index l) index (.fin x) = .ok (.fin ((x + l.sum : ℤ) : ℚ)) := by
  induction l generalizing index x with
  | nil => simp [tranchesFrom, trancheSum]
  | cons y l ih =>
    obtain ⟨hy, hl⟩ := List.forall_mem_cons.mp hpos
    obtain ⟨hycap, hlcap⟩ := List.forall_mem_cons.mp hcap
    rw [List.sum_cons] at hsum
    have hrest : 0 ≤ l.sum := List.sum_nonneg fun z hz => (hl z hz).le
    have hzero : (0 : JsNumber) = .fin ((0 : ℤ) : ℚ) := JsNumber.ofInt_eq_fin (by decide)
    have hsafe : (JsNumber.fin (y : ℚ)).isSafeInteger = true :=
      JsNumber.isSafeInteger_iff.mpr ⟨y, by omega, rfl⟩
    have hindex : (JsNumber.ofInt index).strictEq (.ofInt index) = true := by
      simp [JsNumber.strictEq, JsNumber.ofInt_ne_nan]
    have hfirst : ¬ (cap.any fun limit => limit < JsNumber.fin (y : ℚ)) = true := by
      rw [Option.any_eq_true]
      rintro ⟨limit, hlimit, hlt⟩
      exact hycap limit hlimit (of_decide_eq_true hlt)
    rw [tranchesFrom, trancheSum, if_neg ?_, if_neg hfirst, JsNumber.add_intCast (by omega),
      ih (by omega) hl (by rw [add_assoc]; exact hsum) hlcap, List.sum_cons, add_assoc]
    rw [hindex, hsafe, hzero, JsNumber.intCast_le]
    simpa using hy

def PlanStartPayload.retranched (p : PlanStartPayload) (ts : List TrancheDescriptor) :
    PlanStartPayload :=
  { p with tranches := ts }

theorem validatePlanStart_tranches
    (h : validatePlanStart p = none) (hlength : ts.length = p.tranches.length)
    (hsum : trancheSum p.sliceCapMsats ts 0 0 = .ok p.totalMsats) :
    validatePlanStart (p.retranched ts) = none := by
  have hnan : p.totalMsats ≠ .nan := by
    rw [(planSums_of_valid h).total]
    exact JsNumber.noConfusion
  change validatePlanStart { p with tranches := ts } = none
  unfold validatePlanStart at h ⊢
  dsimp only
  rw [hlength]
  split_ifs at h with h₁ h₂ h₃ h₄ h₅ h₆ h₇ h₈
  rw [if_neg h₁, if_neg h₂, if_neg h₃, if_neg h₄, if_neg h₅, if_neg h₆, if_neg h₇, if_neg h₈, hsum]
  simp [JsNumber.strictEq, hnan]

theorem PlanSums.length_le (h : PlanSums p) :
    (p.tranches.length : ℤ) ≤ (p.tranches.map TrancheDescriptor.msats).sum := by
  have hpos : ∀ x ∈ p.tranches.map TrancheDescriptor.msats, 0 < x := by
    simpa using fun t ht => (h.passed t ht).pos
  obtain ⟨t, ht⟩ := List.exists_mem_of_length_pos h.some_tranche
  have hroom := add_length_le_sum hpos (List.mem_map_of_mem ht)
  have := (h.passed t ht).pos
  rw [List.length_map] at hroom
  omega

theorem PlanSums.exists_limit (h : PlanSums p) (hloose : ¬ BoundsTranches p) :
    ∃ limit : ℤ, (maxSliceExposureMsats : ℤ) < limit ∧
      (∀ x ≤ limit, ∀ cap, p.sliceCapMsats = some cap → ¬ cap < .fin (x : ℚ)) ∧
      (p.tranches.map TrancheDescriptor.msats).sum ≤ p.tranches.length * limit := by
  obtain ⟨hdeclared, htotal⟩ := not_or.mp hloose
  rw [ceiling_add_total h, h.total, JsNumber.intCast_lt] at htotal
  have hsome := h.some_tranche
  cases hcap : p.sliceCapMsats with
  | none =>
    refine ⟨(p.tranches.map TrancheDescriptor.msats).sum, by omega, by simp, ?_⟩
    nlinarith
  | some cap =>
    obtain ⟨z, rfl⟩ := h.declared cap hcap
    rw [hcap, Option.any_some, decide_eq_true_eq, sliceCeiling_eq, JsNumber.intCast_le] at hdeclared
    refine ⟨z, by omega, fun x hx cap hz => ?_, ?_⟩
    · obtain rfl := Option.some.inj hz
      rw [JsNumber.intCast_lt]
      omega
    · have hle : ∀ x ∈ p.tranches.map TrancheDescriptor.msats, x ≤ z := by
        simp only [List.mem_map, forall_exists_index, and_imp, forall_apply_eq_imp_iff₂]
        intro t ht
        have hcapped := (h.passed t ht).capped _ hcap
        rw [(h.passed t ht).amount, JsNumber.intCast_lt] at hcapped
        omega
      have hsum := List.sum_le_card_nsmul _ z hle
      rwa [List.length_map, nsmul_eq_mul] at hsum

theorem exists_lopsided (hvalid : validatePlanStart p = none) (hloose : ¬ BoundsTranches p) :
    ∃ ts, validatePlanStart (p.retranched ts) = none ∧
      ∃ t ∈ ts, sliceCeiling < t.amountMsats := by
  have h := planSums_of_valid hvalid
  obtain ⟨limit, habove, hwithin, hhigh⟩ := h.exists_limit hloose
  have htotal := (not_or.mp hloose).2
  rw [ceiling_add_total h, h.total, JsNumber.intCast_lt] at htotal
  have hsome := h.some_tranche
  obtain ⟨hparts, hsum⟩ := lopsided_spec h.length_le hhigh
  obtain ⟨z, hz, heq⟩ := JsNumber.isSafeInteger_iff.mp h.safe
  rw [h.total, JsNumber.intCast_inj] at heq
  rw [heq] at hparts hsum htotal
  refine ⟨tranchesFrom 0 (lopsided limit z p.tranches.length),
    validatePlanStart_tranches hvalid (by simp) ?_, ?_⟩
  · have hzero : (0 : JsNumber) = .fin ((0 : ℤ) : ℚ) := JsNumber.ofInt_eq_fin (by decide)
    rw [hzero, trancheSum_tranchesFrom le_rfl (fun x hx => (hparts x hx).1) ?_
      (fun x hx => hwithin x (hparts x hx).2), hsum, zero_add, h.total, heq]
    rwa [hsum, zero_add]
  · obtain ⟨n, hn⟩ : ∃ n, p.tranches.length = n + 1 := ⟨p.tranches.length - 1, by omega⟩
    rw [hn, lopsided, tranchesFrom]
    refine ⟨_, List.mem_cons_self, ?_⟩
    rw [sliceCeiling_eq, JsNumber.intCast_lt]
    rw [hn] at htotal
    push_cast at htotal
    omega

/-! ### The plan of a run -/

structure FreezesPlan (s : EscrowState) (e : ParsedEscrowEvent) (s' : EscrowState)
    (p : PlanStartPayload) : Prop where
  payload : e.payload = .planStart p
  first : s.tranchePlan = none
  valid : validatePlanStart p = none
  frozen : s'.tranchePlan = some { p with eventId := e.id }

theorem Handled.freezesPlan (h : Handled host s e s') :
    s'.tranchePlan = s.tranchePlan ∨ ∃ p, FreezesPlan s e s' p := by
  cases h
  case planRepeated => exact Or.inl rfl
  case planStarted payload _ first valid _ _ _ _ clone =>
    exact Or.inr ⟨_, payload, first, valid, rfl⟩
  case voted clone count =>
    obtain ⟨votes, acting, rfl⟩ := countVote_eq_ok count
    exact Or.inl clone.tranchePlan
  case stalled clone => exact Or.inl clone.tranchePlan
  all_goals
    rename_i clone
    exact Or.inl clone.tranchePlan

theorem Stepped.freezesPlan (h : Stepped host s e s') :
    s'.tranchePlan = s.tranchePlan ∨ ∃ p, FreezesPlan s e s' p := by
  have expired {next : EscrowState} (expires : Expires s e next) :
      next.tranchePlan = s.tranchePlan := by
    obtain ⟨copy, clone, rfl⟩ := expires.eq
    exact clone.tranchePlan
  cases h with
  | echoed => exact Or.inl rfl
  | premium _ _ clone => exact Or.inl clone.tranchePlan
  | settlement _ _ clone => exact Or.inl clone.tranchePlan
  | expired _ expires => exact Or.inl (expired expires)
  | handled _ _ _ _ handled => exact handled.freezesPlan
  | lateHandled _ _ expires handled =>
    have hsame := expired expires
    rcases handled.freezesPlan with h | ⟨p, h⟩
    · exact Or.inl (h.trans hsame)
    · exact Or.inr ⟨p, h.payload, hsame ▸ h.first, h.valid, h.frozen⟩

def SignsSlices (s : EscrowState) : Prop :=
  ∃ c p, s.eventChain.head? = some c ∧ c.payload = .create p ∧ p.sliceCount.isUndefined = false

theorem Stepped.signsSlices (h : Stepped host s e s') (hne : s.eventChain ≠ []) :
    s'.eventChain ≠ [] ∧ (SignsSlices s' ↔ SignsSlices s) := by
  unfold SignsSlices
  rcases h.eventChain with hsame | hpush
  · rw [hsame]
    exact ⟨hne, Iff.rfl⟩
  · have hhead : (s.eventChain ++ [e]).head? = s.eventChain.head? := by
      cases hchain : s.eventChain with
      | nil => exact absurd hchain hne
      | cons c es => rfl
    rw [hpush, hhead]
    exact ⟨by simp, Iff.rfl⟩

/-- The plan of a sliced trade is under the ceiling. -/
structure SlicesCapped (s : EscrowState) : Prop where
  born : s.eventChain ≠ []
  capped : SignsSlices s → ∀ plan, s.tranchePlan = some plan → ∀ t ∈ plan.tranches,
    t.amountMsats ≤ sliceCeiling

theorem SlicesCapped.step (hs : SlicesCapped s)
    (hC : SignsSlices s → ∀ p, e.payload = .planStart p → BoundsTranches p)
    (h : Stepped host s e s') : SlicesCapped s' := by
  obtain ⟨hborn, hsigned⟩ := h.signsSlices hs.born
  refine ⟨hborn, fun hslices plan hplan t ht => ?_⟩
  rw [hsigned] at hslices
  rcases h.freezesPlan with hsame | ⟨p, hfreezes⟩
  · rw [hsame] at hplan
    exact hs.capped hslices plan hplan t ht
  · rw [hfreezes.frozen, Option.some.injEq] at hplan
    subst hplan
    exact (planSums_of_valid hfreezes.valid).le_ceiling (hC hslices p hfreezes.payload) ht

theorem RunsUnder.slicesCapped
    (h : RunsUnder host (fun s e => SignsSlices s → ∀ p, e.payload = .planStart p →
      BoundsTranches p) s) : SlicesCapped s := by
  refine Run.invariant (fun s hs => ?_) (fun s e s' hC hs h => ?_) h
  · obtain ⟨e, p, hborn⟩ := hs.newborn
    refine ⟨by simp [hborn.eventChain], fun _ plan hplan => ?_⟩
    rw [hborn.tranchePlan] at hplan
    cases hplan
  · exact hs.step hC (applyToState_stepped h)

/-! ### The reducer on a lopsided plan -/

def ParsedEscrowEvent.withPlan (e : ParsedEscrowEvent) (p : PlanStartPayload) : ParsedEscrowEvent :=
  { e with payload := .planStart p }

@[simp]
theorem kind_withPlan (p : PlanStartPayload) : (e.withPlan p).kind = .planStart := rfl

theorem isPastDeadline_withPlan (hkind : e.kind = .planStart) :
    isPastDeadline s (e.withPlan p) = isPastDeadline s e := by
  unfold isPastDeadline
  rw [hkind, kind_withPlan]
  rfl

theorem startPlan_retranched
    (h : startPlan s e p = .ok s') (hvalid : validatePlanStart (p.retranched ts) = none) :
    ∃ s'', startPlan s (e.withPlan (p.retranched ts)) (p.retranched ts) = .ok s'' ∧
      s''.tranchePlan = some { p.retranched ts with eventId := e.id } := by
  simp only [startPlan, bind_eq_ok, guardNone_eq_ok, guardErr_eq_ok, js_eq_ok, pure_eq_ok] at h ⊢
  obtain ⟨_, -, _, hauthor, _, hseats, _, harbiter, _, hamount, _, hpolicy, next, hnext, -⟩ := h
  exact ⟨_, ⟨(), hvalid, (), hauthor, (), hseats, (), harbiter, (), hamount, (), hpolicy, next,
      hnext,
    rfl⟩, rfl⟩

theorem FreezesPlan.on_time (hfreezes : FreezesPlan s e s' p)
    (h : Stepped host s e s') : s.hasEvent e.id = false ∧ s.status.isTrulyTerminal = false ∧
      (isPastDeadline s e = false ∨ s.status = .expired) := by
  have hkind : e.kind = .planStart := by
    rw [ParsedEscrowEvent.kind, hfreezes.payload, EscrowPayload.kind]
  have hchanged : s'.tranchePlan ≠ s.tranchePlan := by
    rw [hfreezes.frozen, hfreezes.first]
    exact Option.some_ne_none _
  cases h with
  | echoed => exact absurd rfl hchanged
  | premium payload => simp [hfreezes.payload] at payload
  | settlement payload => simp [hfreezes.payload] at payload
  | expired _ expires =>
    obtain ⟨copy, clone, rfl⟩ := expires.eq
    exact absurd clone.tranchePlan hchanged
  | handled fresh opened due _ _ => exact ⟨fresh, opened, due⟩
  | lateHandled _ kind => simp [hkind] at kind

theorem FreezesPlan.exists_over_cap (hfreezes : FreezesPlan s e s' p)
    (h : applyToState host s e = .ok s') (hloose : ¬ BoundsTranches p) :
    ∃ ts s'', applyToState host s (e.withPlan (p.retranched ts)) = .ok s'' ∧
      s''.tranchePlan = some { p.retranched ts with eventId := e.id } ∧
      ∃ t ∈ ts, sliceCeiling < t.amountMsats := by
  obtain ⟨ts, hvalid, hover⟩ := exists_lopsided hfreezes.valid hloose
  obtain ⟨hfresh, hopened, hdue⟩ := hfreezes.on_time (applyToState_stepped h)
  have hpayload := hfreezes.payload
  have hkind : e.kind = .planStart := by rw [ParsedEscrowEvent.kind, hpayload, EscrowPayload.kind]
  -- The handler has started the plan, so it starts the lopsided one.
  rw [applyToState_dispatch (by rw [hpayload]; rfl) (by simp [outcomeLaw, hpayload]) hfresh hopened
    hdue] at h
  simp only [dispatch, hpayload, handlePlanStart, hfreezes.first, bind_eq_ok, guardErr_eq_ok] at h
  obtain ⟨-, hparent, h⟩ := h
  obtain ⟨s'', hstart, hplan⟩ := startPlan_retranched h hvalid
  refine ⟨ts, s'', ?_, hplan, hover⟩
  have hdue' : isPastDeadline s (e.withPlan (p.retranched ts)) = false ∨ s.status = .expired := by
    rwa [isPastDeadline_withPlan hkind]
  rw [applyToState_dispatch (e := e.withPlan (p.retranched ts)) rfl rfl hfresh hopened hdue']
  change handlePlanStart s _ (p.retranched ts) = .ok s''
  simp only [handlePlanStart, hfreezes.first, bind_eq_ok, guardErr_eq_ok]
  exact ⟨(), hparent, hstart⟩

/-! ### The slice cap -/

/-- The slice cap: along every run in which the headers of the plans of sliced trades bound their
tranches, no tranche of a sliced trade's plan is above the ceiling.  Where the reducer freezes a
plan of any other header, it freezes one of the same header with a tranche above the ceiling. -/
theorem sliced_cap (host : Host) :
    (∀ s, RunsUnder host (fun s e => SignsSlices s → ∀ p, e.payload = .planStart p →
        BoundsTranches p) s →
      SignsSlices s → ∀ plan, s.tranchePlan = some plan → ∀ t ∈ plan.tranches,
        t.amountMsats ≤ sliceCeiling) ∧
      ∀ s e s' p, FreezesPlan s e s' p → applyToState host s e = .ok s' → ¬ BoundsTranches p →
        ∃ ts s'', applyToState host s (e.withPlan (p.retranched ts)) = .ok s'' ∧
          s''.tranchePlan = some { p.retranched ts with eventId := e.id } ∧
          ∃ t ∈ ts, sliceCeiling < t.amountMsats := by
  constructor
  · intro s hs
    exact hs.slicesCapped.capped
  · intro s e s' p hfreezes h hloose
    exact hfreezes.exists_over_cap h hloose

def slicedCreate : ParsedEscrowEvent := sampleEvent '0' 'a' 1800000000 (.create {
  description := "coins"
  amountMsats := 4000000000
  category := "p2p-trade"
  sliceCount := .num 2
  mintUrl := "https://mint"
  platformFeeBps := 0
  platformFeePubkey := hexKey 'd'
  expirySeconds := 3600
  communityArbiters := .arr [.str (hexKey 'c')]
  createdAt := 1800000000 })

def slicedPlan (sliceCapMsats : Option JsNumber) (first second : JsNumber) : ParsedEscrowEvent :=
  sampleEvent '8' 'a' 1800000030 (.planStart {
    planId := hexKey 'e'
    total := 2
    totalMsats := 4000000000
    buyerPubkey := hexKey 'b'
    sellerPubkey := hexKey 'a'
    arbiterPubkey := hexKey 'c'
    termsDigest := hexKey 'f'
    coordinatorPubkey := hexKey 'a'
    bitcoinNetwork := .mainnet
    settlementPolicy := some settlementPolicyEcashSlices
    sliceCount := some 2
    sliceCapMsats
    tranches := [⟨0, first⟩, ⟨1, second⟩]
    startedAt := 1800000030 })

theorem signsSlices_liveTrade {create : ParsedEscrowEvent} {p : CreatePayload}
    {es : List ParsedEscrowEvent} (hp : create.payload = .create p)
    (hcount : p.sliceCount.isUndefined = false) (h : liveTrade host create es = some s) :
    SignsSlices s := by
  unfold liveTrade at h
  split at h
  · rename_i s₀ hcreate
    rw [Option.some.injEq] at h
    obtain ⟨q, hq, hcreate⟩ := (applyEvent_none host).mp hcreate
    have hchain := (handleCreate_newborn hq hcreate).eventChain
    have hstart : s₀.eventChain ≠ [] ∧ SignsSlices s₀ :=
      ⟨by simp [hchain], create, p, by rw [hchain]; rfl, hp, hcount⟩
    rw [← h]
    refine (liveFold_invariant (I := fun s => s.eventChain ≠ [] ∧ SignsSlices s)
      (fun s e s' hs he => ?_) hstart es).2
    obtain ⟨hne, hsigned⟩ := (applyToState_stepped he).signsSlices hs.1
    exact ⟨hne, hsigned.mpr hs.2⟩
  · cases h

/-- A sliced trade whose plan declares no cap exposes three million sats in one tranche. -/
theorem sliced_over_cap :
    ∃ s plan, Reached silentHost s ∧ SignsSlices s ∧ s.tranchePlan = some plan ∧
      ∃ t ∈ plan.tranches, sliceCeiling < t.amountMsats := by
  have hrun : (liveTrade silentHost slicedCreate [sampleJoin,
      slicedPlan none 3000000000 1000000000]).any (fun s => s.tranchePlan.any
        fun plan => plan.tranches.any fun t => sliceCeiling < t.amountMsats) = true := by
    decide +kernel
  obtain ⟨s, hs, h⟩ := (Option.any_eq_true _ _).mp hrun
  obtain ⟨plan, hplan, htranche⟩ := (Option.any_eq_true _ _).mp h
  obtain ⟨t, ht, hover⟩ := List.any_eq_true.mp htranche
  exact ⟨s, plan, liveTrade_reached silentHost hs, signsSlices_liveTrade rfl rfl hs, hplan, t, ht,
    of_decide_eq_true hover⟩

/-- The sliced trade with an even plan that declares the ceiling as its cap. -/
theorem sliced_cap_sample :
    ∃ s plan, SignsSlices s ∧ s.tranchePlan = some plan ∧
      ∀ t ∈ plan.tranches, t.amountMsats ≤ sliceCeiling := by
  have hrun : (liveTrade silentHost slicedCreate [sampleJoin,
      slicedPlan (some 2000000000) 2000000000 2000000000]).any (fun s => s.tranchePlan.isSome) =
        true := by
    decide +kernel
  obtain ⟨s, hs, h⟩ := (Option.any_eq_true _ _).mp hrun
  obtain ⟨plan, hplan⟩ := Option.isSome_iff_exists.mp h
  have hsigns : SignsSlices s := signsSlices_liveTrade rfl rfl hs
  have hbounds : ∀ t : EscrowState, ∀ e ∈ [sampleJoin,
      slicedPlan (some 2000000000) 2000000000 2000000000],
      SignsSlices t → ∀ p, e.payload = .planStart p → BoundsTranches p := by
    intro t e he _ p hp
    rcases List.mem_pair.mp he with rfl | rfl
    · cases hp
    · obtain rfl := EscrowPayload.planStart.inj hp
      exact Or.inl (by decide +kernel)
  exact ⟨s, plan, hsigns, hplan,
    (sliced_cap silentHost).1 s (liveTrade_run silentHost hs hbounds) hsigns plan hplan⟩

end ChamaEscrow
