import ChamaEscrow.Js.Quotient
import ChamaEscrow.Trade.SliceCap
import Mathlib.Algebra.BigOperators.Ring.Finset
import Mathlib.Data.List.Range

/-!
# The slices of an amount

`deriveSlicePlan` (`slice-policy.ts`) turns a total and a preferred count into slices: as many as
the user wants, more when the ceiling on a slice asks for it.  It splits an amount in two ways, by
filling slice after slice up to the ceiling (`splitTranches` of `tranche-plan.ts`) or evenly
(`splitEven`), and refuses a total that has no thousand msats for each slice the user wants.

* `splitTranches_eq`, `splitEven_eq`: both splits over the natural numbers; the rounded quotients
  they start from are exact.
* `deriveSlicePlan_cases`: what an accepted plan is.
* `deriveSlicePlan_exact`: an accepted plan has all that is promised unless the last of the slices
  that the ceiling asks for holds less than a thousand msats, which the check of the preferred count
  does not see.
-/

namespace ChamaEscrow

open Js Library

/-! ### Whole amounts -/

structure WholeMsats where
  value : JsNumber
  safe : value.isSafeInteger = true
  nonneg : 0 ≤ value

namespace WholeMsats

/-- The amount as a natural number. -/
def toNat (a : WholeMsats) : ℕ :=
  match a.value with
  | .fin q => q.num.toNat
  | _ => 0

theorem value_spec (a : WholeMsats) :
    a.toNat < JsNumber.maxExact ∧ a.value = .fin ((a.toNat : ℤ) : ℚ) := by
  obtain ⟨value, hsafe, hnonneg⟩ := a
  obtain ⟨z, hz, rfl⟩ := JsNumber.isSafeInteger_iff.mp hsafe
  have hzero : (0 : JsNumber) = .fin ((0 : ℤ) : ℚ) := JsNumber.ofInt_eq_fin (by decide)
  rw [hzero, JsNumber.intCast_le] at hnonneg
  have hnat : toNat ⟨.fin z, hsafe, by rwa [hzero, JsNumber.intCast_le]⟩ = z.toNat := by
    simp only [toNat, Rat.num_intCast]
  rw [hnat, Int.toNat_of_nonneg hnonneg]
  exact ⟨by omega, rfl⟩

theorem value_eq (a : WholeMsats) : a.value = .fin ((a.toNat : ℤ) : ℚ) := a.value_spec.2

theorem toNat_lt (a : WholeMsats) : a.toNat < JsNumber.maxExact := a.value_spec.1

def ofNat (n : ℕ) (h : n < JsNumber.maxExact) : WholeMsats where
  value := .fin ((n : ℤ) : ℚ)
  safe := JsNumber.isSafeInteger_iff.mpr ⟨n, by simpa using h, rfl⟩
  nonneg := by
    rw [JsNumber.zero_eq_fin, JsNumber.fin_le_fin]
    exact_mod_cast n.zero_le

theorem toNat_eq {a : WholeMsats} {n : ℕ} (h : a.value = .fin ((n : ℤ) : ℚ)) : a.toNat = n := by
  have hvalue := a.value_eq
  rw [h, JsNumber.intCast_inj] at hvalue
  omega

@[simp]
theorem toNat_ofNat (n : ℕ) (h : n < JsNumber.maxExact) : (ofNat n h).toNat = n := toNat_eq rfl

theorem pos_iff (a : WholeMsats) : 0 < a.value ↔ 0 < a.toNat := by
  rw [a.value_eq, JsNumber.zero_eq_fin, JsNumber.fin_lt_fin]
  exact_mod_cast Iff.rfl

theorem min_value (a b : WholeMsats) :
    JsNumber.min a.value b.value = .fin (((min a.toNat b.toNat : ℕ) : ℤ) : ℚ) := by
  rw [a.value_eq, b.value_eq]
  rcases le_total a.toNat b.toNat with hle | hle
  · rw [min_eq_left hle]
    refine JsNumber.min_eq_left ?_
    rw [JsNumber.intCast_le]
    exact_mod_cast hle
  · rw [min_eq_right hle]
    refine JsNumber.min_eq_right ?_
    rw [JsNumber.intCast_le]
    exact_mod_cast hle

theorem minus_value (a b : WholeMsats) : a.value - JsNumber.min a.value b.value
    = .fin (((a.toNat - b.toNat : ℕ) : ℤ) : ℚ) := by
  have hlt := a.toNat_lt
  rw [min_value, a.value_eq, JsNumber.sub_intCast (by omega)]
  congr 2
  omega

/-- What is left of an amount when at most `b` of it is taken away. -/
def minus (a b : WholeMsats) : WholeMsats where
  value := a.value - JsNumber.min a.value b.value
  safe := by
    have hlt := a.toNat_lt
    rw [minus_value]
    exact JsNumber.isSafeInteger_iff.mpr ⟨_, by omega, rfl⟩
  nonneg := by
    rw [minus_value, JsNumber.zero_eq_fin, JsNumber.fin_le_fin]
    exact_mod_cast Nat.zero_le _

@[simp]
theorem toNat_minus (a b : WholeMsats) : (a.minus b).toNat = a.toNat - b.toNat :=
  toNat_eq (minus_value a b)

end WholeMsats

/-! ### The two splits -/

/-- The loop of `splitTranches`: the tranches of what remains, from position `index` on. -/
def splitLoop (maximumChildMsats : WholeMsats) (hpos : 0 < maximumChildMsats.value)
    (remaining : WholeMsats) (index : ℕ) : List TrancheDescriptor :=
  if 0 < remaining.value then
    let amountMsats := JsNumber.min remaining.value maximumChildMsats.value
    { index := .ofInt index, amountMsats } ::
      splitLoop maximumChildMsats hpos (remaining.minus maximumChildMsats) (index + 1)
  else []
termination_by remaining.toNat
decreasing_by
  rename_i hremaining
  rw [WholeMsats.toNat_minus]
  have := (WholeMsats.pos_iff _).mp hpos
  have := (WholeMsats.pos_iff _).mp hremaining
  omega

theorem wholeMsats_of_checked {a : JsNumber} (h : ¬ (!a.isSafeInteger ∨ a ≤ 0)) :
    a.isSafeInteger = true ∧ 0 < a := by
  obtain ⟨hsafe, hpos⟩ := not_or.mp h
  have hsafe : a.isSafeInteger = true := by simpa using hsafe
  obtain ⟨z, -, rfl⟩ := JsNumber.isSafeInteger_iff.mp hsafe
  refine ⟨hsafe, ?_⟩
  rw [JsNumber.zero_eq_fin, JsNumber.fin_le_fin] at hpos
  rw [JsNumber.zero_eq_fin, JsNumber.fin_lt_fin]
  exact not_le.mp hpos

def splitTranches (totalMsats maximumChildMsats : JsNumber) :
    Except JsError (List TrancheDescriptor) :=
  if htotal : !totalMsats.isSafeInteger ∨ totalMsats ≤ 0 then
    .error (.error "Total must be positive integer msats")
  else if hmaximum : !maximumChildMsats.isSafeInteger ∨ maximumChildMsats ≤ 0 then
    .error (.error "Child maximum must be positive integer msats")
  else
    have htotal := wholeMsats_of_checked htotal
    have hmaximum := wholeMsats_of_checked hmaximum
    .ok (splitLoop ⟨maximumChildMsats, hmaximum.1, JsNumber.le_of_lt hmaximum.2⟩ hmaximum.2
      ⟨totalMsats, htotal.1, JsNumber.le_of_lt htotal.2⟩ 0)

/-- The positions below a finite `count`, in the order a loop goes through them. -/
def positionsBelow : (count : JsNumber) → List ℕ
  | .fin q => List.range ⌈q⌉.toNat
  | _ => []

def splitEven (totalMsats count : JsNumber) : List TrancheDescriptor :=
  let base := (totalMsats / count).floor
  let remainder := totalMsats - base * count
  (positionsBelow count).map fun index : ℕ =>
    { index := .ofInt index
      amountMsats := base + (if JsNumber.ofInt index < remainder then 1 else 0) }

/-! ### Lists of amounts -/

/-- The tranches of the given amounts, numbered from `index` on. -/
def describe (index : ℕ) : List ℕ → List TrancheDescriptor
  | [] => []
  | amount :: rest => ⟨.ofInt index, .fin ((amount : ℤ) : ℚ)⟩ :: describe (index + 1) rest

@[simp]
theorem length_describe (index : ℕ) (amounts : List ℕ) :
    (describe index amounts).length = amounts.length := by
  induction amounts generalizing index with
  | nil => rfl
  | cons amount rest ih => rw [describe, List.length_cons, ih, List.length_cons]

theorem describe_index {index : ℕ} {amounts : List ℕ} :
    (describe index amounts).map TrancheDescriptor.index
      = (List.range' index amounts.length).map fun i : ℕ => JsNumber.ofInt i := by
  induction amounts generalizing index with
  | nil => rfl
  | cons amount rest ih =>
    rw [describe, List.map_cons, ih, List.length_cons, List.range'_succ, List.map_cons]

theorem describe_msats (index : ℕ) (amounts : List ℕ) :
    (describe index amounts).map TrancheDescriptor.msats = amounts.map Nat.cast := by
  induction amounts generalizing index with
  | nil => rfl
  | cons amount rest ih =>
    rw [describe, List.map_cons, ih, List.map_cons]
    congr 1

theorem describe_whole {index : ℕ} {amounts : List ℕ} {t : TrancheDescriptor}
    (h : t ∈ describe index amounts) :
    ∃ amount ∈ amounts, t.msats = amount ∧ t.amountMsats = .fin (t.msats : ℚ) := by
  induction amounts generalizing index with
  | nil => cases h
  | cons amount rest ih =>
    rcases List.mem_cons.mp h with rfl | h
    · exact ⟨amount, List.mem_cons_self, rfl, rfl⟩
    · obtain ⟨amount', hmem, hrest⟩ := ih h
      exact ⟨amount', List.mem_cons_of_mem _ hmem, hrest⟩

theorem describe_map_range (index n : ℕ) (f : ℕ → ℕ) :
    describe index ((List.range' index n).map f)
      = (List.range' index n).map fun i : ℕ => ⟨.ofInt i, .fin ((f i : ℤ) : ℚ)⟩ := by
  induction n generalizing index with
  | zero => rfl
  | succ n ih => rw [List.range'_succ, List.map_cons, describe, ih, List.map_cons]

/-- The amounts when slice after slice is filled up to `cap`: the last one takes what is left. -/
def cappedAmounts (cap total : ℕ) : List ℕ :=
  List.replicate ((total - 1) / cap) cap ++ [(total - 1) % cap + 1]

/-- The amounts of an even split: the first ones take one more each as long as the remainder
lasts. -/
def evenAmounts (count total : ℕ) : List ℕ :=
  (List.range count).map fun i => total / count + if i < total % count then 1 else 0

theorem length_cappedAmounts (cap total : ℕ) :
    (cappedAmounts cap total).length = (total - 1) / cap + 1 := by
  rw [cappedAmounts, List.length_append, List.length_replicate, List.length_singleton]

theorem sum_cappedAmounts {cap total : ℕ} (htotal : 0 < total) :
    (cappedAmounts cap total).sum = total := by
  have hdiv := Nat.div_add_mod' (total - 1) cap
  rw [cappedAmounts, List.sum_append, List.sum_replicate, List.sum_singleton, Nat.nsmul_eq_mul]
  omega

theorem cappedAmounts_of_lt {cap total : ℕ} (hcap : 0 < cap) (h : cap < total) :
    cappedAmounts cap total = cap :: cappedAmounts cap (total - cap) := by
  have htotal : total - 1 = total - cap - 1 + cap := by omega
  rw [cappedAmounts, cappedAmounts, htotal, Nat.add_div_right _ hcap, Nat.add_mod_right,
    List.replicate_succ, List.cons_append]

theorem cappedAmounts_of_le {cap total : ℕ} (htotal : 0 < total) (h : total ≤ cap) :
    cappedAmounts cap total = [total] := by
  rw [cappedAmounts, Nat.div_eq_of_lt (by omega), Nat.mod_eq_of_lt (by omega),
    List.replicate_zero, List.nil_append, Nat.sub_add_cancel htotal]

theorem sum_steps (base extra n : ℕ) :
    ((List.range n).map fun i => base + if i < extra then 1 else 0).sum
      = n * base + min extra n := by
  induction n with
  | zero => simp
  | succ n ih =>
    rw [List.range_succ, List.map_append, List.sum_append, ih, List.map_singleton,
      List.sum_singleton, Nat.succ_mul]
    split_ifs <;> omega

theorem sum_evenAmounts {count total : ℕ} (hcount : 0 < count) :
    (evenAmounts count total).sum = total := by
  have hdiv := Nat.div_add_mod total count
  have hmod := Nat.mod_lt total hcount
  rw [evenAmounts, sum_steps, min_eq_left hmod.le]
  exact hdiv

/-! ### The splits over the natural numbers -/

theorem splitLoop_eq {maximum : WholeMsats} (hpos : 0 < maximum.value) (remaining : WholeMsats)
    (index : ℕ) (hremaining : 0 < remaining.toNat) :
    splitLoop maximum hpos remaining index
      = describe index (cappedAmounts maximum.toNat remaining.toNat) := by
  induction remaining, index using splitLoop.induct with
  | maximumChildMsats => exact maximum
  | hpos => exact hpos
  | case1 remaining index h ih =>
    have hmaximum := (WholeMsats.pos_iff _).mp hpos
    rw [splitLoop, if_pos h]
    dsimp only
    rw [WholeMsats.min_value]
    rcases Nat.lt_or_ge maximum.toNat remaining.toNat with hlt | hle
    · have hleft : 0 < (remaining.minus maximum).toNat := by
        rw [WholeMsats.toNat_minus]
        omega
      rw [ih hleft, cappedAmounts_of_lt hmaximum hlt, describe, WholeMsats.toNat_minus,
        min_eq_right hlt.le]
    · -- The loop ends after the slice that takes the rest.
      have hdone : ¬ 0 < (remaining.minus maximum).value := by
        rw [WholeMsats.pos_iff, WholeMsats.toNat_minus]
        omega
      rw [splitLoop, if_neg hdone, cappedAmounts_of_le hremaining hle, describe, describe,
        min_eq_left hle]
  | case2 remaining index h => exact absurd ((WholeMsats.pos_iff _).mpr hremaining) h

/-! ### The plan -/

structure SlicePlanParams where
  totalMsats : JsNumber
  /-- The count of slices that the party prefers. -/
  userCount : JsNumber

structure SlicePlan where
  sliceCount : JsNumber
  tranches : List TrancheDescriptor
  maxSliceMsats : JsNumber
  /-- Whether the ceiling forced more slices than the party prefers. -/
  capForcedUp : Bool

def deriveSlicePlan (params : SlicePlanParams) : Except JsError SlicePlan :=
  let { totalMsats, userCount } := params
  if !userCount.isSafeInteger ∨ userCount < 1 then
    .error (.error "userCount must be a positive safe integer (1 = single settlement)")
  else if maxSliceCount < userCount then
    .error (.error "userCount exceeds MAX_SLICE_COUNT (100)")
  else if totalMsats < userCount * 1000 then
    .error (.error "totalMsats too small for a positive amount in every slice")
  else minSlicesForCap totalMsats >>= fun floor =>
    if maxSliceCount < floor then
      .error (.error "totalMsats requires more than MAX_SLICE_COUNT (100) slices")
    else
      let sliceCount := JsNumber.max userCount floor
      splitTranches totalMsats (.ofInt maxSliceExposureMsats) >>= fun tranches =>
        let finalTranches :=
          if sliceCount.strictEq (.ofInt tranches.length) then tranches
          else splitEven totalMsats sliceCount
        .ok {
          sliceCount
          tranches := finalTranches
          maxSliceMsats := (finalTranches.map TrancheDescriptor.amountMsats).foldl
            JsNumber.max .negInf
          capForcedUp := userCount < floor }

/-! ### What is accepted -/

/-- `ceil(total / cap)` of a positive total. -/
def slicesForCap (total : ℕ) : ℕ := (total - 1) / maxSliceExposureMsats + 1

theorem slicesForCap_bounds {total : ℕ} (h : 0 < total) :
    (slicesForCap total - 1) * maxSliceExposureMsats < total ∧
      total ≤ slicesForCap total * maxSliceExposureMsats := by
  have hdiv := Nat.div_add_mod' (total - 1) maxSliceExposureMsats
  have hmod := Nat.mod_lt (total - 1) (y := maxSliceExposureMsats) (by decide)
  rw [slicesForCap, Nat.add_sub_cancel, Nat.succ_mul]
  omega

theorem ceil_eq_slicesForCap {total : ℕ} (h : 0 < total) :
    ⌈(total : ℚ) / maxSliceExposureMsats⌉ = (slicesForCap total : ℤ) := by
  obtain ⟨hlow, hhigh⟩ := slicesForCap_bounds h
  have hpos : (0 : ℚ) < maxSliceExposureMsats := by norm_num [maxSliceExposureMsats]
  have hone : 1 ≤ slicesForCap total := Nat.le_add_left ..
  have hlow' : (((slicesForCap total - 1 : ℕ) : ℚ)) * maxSliceExposureMsats < total := by
    exact_mod_cast hlow
  rw [Nat.cast_sub hone, Nat.cast_one] at hlow'
  have hhigh' : (total : ℚ) ≤ slicesForCap total * maxSliceExposureMsats := by exact_mod_cast hhigh
  rw [Int.ceil_eq_iff]
  push_cast
  exact ⟨(lt_div_iff₀ hpos).mpr hlow', (div_le_iff₀ hpos).mpr hhigh'⟩

/-- The quotient that `minSlicesForCap` rounds up is a step of the grid above the last integer
before it. -/
theorem step_le_quotient {total k : ℕ} (h : k * maxSliceExposureMsats < total) :
    (k : ℚ) + 1 / 2 ^ 31 ≤ (total : ℚ) / maxSliceExposureMsats := by
  have hpos : (0 : ℚ) < maxSliceExposureMsats := by norm_num [maxSliceExposureMsats]
  have hle : ((k * maxSliceExposureMsats + 1 : ℕ) : ℚ) ≤ total := by exact_mod_cast h
  push_cast at hle
  rw [le_div_iff₀ hpos, add_mul]
  have : (1 : ℚ) / 2 ^ 31 * maxSliceExposureMsats ≤ 1 := by norm_num [maxSliceExposureMsats]
  linarith

theorem minSlicesForCap_eq {total : ℕ} (hpos : 0 < total) (hlt : total < JsNumber.maxExact) :
    minSlicesForCap (.fin ((total : ℤ) : ℚ)) = .ok (JsNumber.max 1
      (JsNumber.ofRat ((total : ℚ) / maxSliceExposureMsats)).ceil) := by
  have hsafe : (JsNumber.fin ((total : ℤ) : ℚ)).isSafeInteger = true :=
    JsNumber.isSafeInteger_iff.mpr ⟨total, by simpa using hlt, rfl⟩
  have hpositive : ¬ JsNumber.fin ((total : ℤ) : ℚ) ≤ 0 := by
    rw [JsNumber.zero_eq_fin, JsNumber.fin_le_fin]
    exact_mod_cast Nat.not_le.mpr hpos
  rw [minSlicesForCap, if_neg (by rw [hsafe]; simpa using hpositive), Int.cast_natCast]
  rfl

theorem maxSliceCount_eq : maxSliceCount = .fin ((100 : ℕ) : ℚ) := by
  change JsNumber.ofInt ((100 : ℕ) : ℤ) = _
  exact JsNumber.ofInt_natCast (by decide)

theorem minSlicesForCap_of_le {total : ℕ} (hpos : 0 < total) (hlt : total < JsNumber.maxExact)
    (hfew : slicesForCap total ≤ 100) :
    minSlicesForCap (.fin ((total : ℤ) : ℚ)) = .ok (.fin ((slicesForCap total : ℤ) : ℚ)) := by
  obtain ⟨hlow, hhigh⟩ := slicesForCap_bounds hpos
  have hone : 1 ≤ slicesForCap total := Nat.le_add_left ..
  have hcap : (0 : ℚ) < maxSliceExposureMsats := by norm_num [maxSliceExposureMsats]
  have hceil := JsNumber.ceil_ofRat (k := slicesForCap total - 1) (n := 31)
    (q := (total : ℚ) / maxSliceExposureMsats) (step_le_quotient hlow)
    (by
      rw [Nat.cast_sub hone, Nat.cast_one, sub_add_cancel, div_le_iff₀ hcap]
      exact_mod_cast hhigh)
    (by norm_num) (by rw [JsNumber.maxExact]; omega)
  rw [Nat.sub_add_cancel hone] at hceil
  rw [minSlicesForCap_eq hpos hlt, hceil, JsNumber.one_eq_fin]
  refine congrArg _ (JsNumber.max_eq_right ?_)
  rw [JsNumber.fin_le_fin]
  exact_mod_cast hone

theorem minSlicesForCap_of_lt {total : ℕ} (hpos : 0 < total) (hlt : total < JsNumber.maxExact)
    (hmany : 100 < slicesForCap total) :
    ∃ floor, minSlicesForCap (.fin ((total : ℤ) : ℚ)) = .ok floor ∧ maxSliceCount < floor := by
  refine ⟨_, minSlicesForCap_eq hpos hlt, ?_⟩
  have hlow := (slicesForCap_bounds hpos).1
  have hceil := JsNumber.lt_ceil_ofRat (k := 100) (n := 31)
    (q := (total : ℚ) / maxSliceExposureMsats)
    (step_le_quotient (lt_of_le_of_lt (Nat.mul_le_mul_right _ (by omega)) hlow))
    (by norm_num) (by decide)
  rw [maxSliceCount_eq]
  refine JsNumber.lt_of_lt_of_le hceil (JsNumber.le_max_right (JsNumber.ofInt_ne_nan 1) ?_)
  intro hnan
  rw [hnan] at hceil
  exact JsNumber.not_lt_nan _ hceil

/-- A total and a preferred count that `deriveSlicePlan` accepts. -/
structure Sliceable (total count : ℕ) : Prop where
  one_le : 1 ≤ count
  le_hundred : count ≤ 100
  room : count * 1000 ≤ total
  exact_total : total < JsNumber.maxExact
  few : slicesForCap total ≤ 100

namespace Sliceable

variable {total count : ℕ}

theorem total_pos (h : Sliceable total count) : 0 < total := by
  have := h.one_le
  have := h.room
  omega

end Sliceable

theorem splitTranches_eq {total cap : ℕ} (hpos : 0 < total) (hlt : total < JsNumber.maxExact)
    (hcap : 0 < cap) (hcapLt : cap < JsNumber.maxExact) :
    splitTranches (.fin ((total : ℤ) : ℚ)) (.fin ((cap : ℤ) : ℚ))
      = .ok (describe 0 (cappedAmounts cap total)) := by
  have hchecked {n : ℕ} (hn : 0 < n) (hnLt : n < JsNumber.maxExact) :
      ¬ (!(JsNumber.fin ((n : ℤ) : ℚ)).isSafeInteger ∨ JsNumber.fin ((n : ℤ) : ℚ) ≤ 0) := by
    rw [JsNumber.isSafeInteger_iff.mpr ⟨n, by simpa using hnLt, rfl⟩, JsNumber.zero_eq_fin,
      JsNumber.fin_le_fin]
    simp only [Bool.not_true, Bool.false_eq_true, false_or]
    exact_mod_cast Nat.not_le.mpr hn
  have hmaximum : 0 < (WholeMsats.ofNat cap hcapLt).value := by
    rw [WholeMsats.pos_iff, WholeMsats.toNat_ofNat]
    exact hcap
  have hloop := splitLoop_eq hmaximum (WholeMsats.ofNat total hlt) 0 (by simpa using hpos)
  rw [WholeMsats.toNat_ofNat, WholeMsats.toNat_ofNat] at hloop
  rw [splitTranches, dif_neg (hchecked hpos hlt), dif_neg (hchecked hcap hcapLt)]
  exact congrArg _ hloop

theorem floor_quotient {total count : ℕ} (hcount : 0 < count) (hhundred : count ≤ 100)
    (hsmall : total ≤ 100 * maxSliceExposureMsats) :
    (JsNumber.fin ((total : ℤ) : ℚ) / JsNumber.fin ((count : ℤ) : ℚ)).floor
      = .fin (((total / count : ℕ) : ℤ) : ℚ) := by
  have hcountQ : (0 : ℚ) < count := by exact_mod_cast hcount
  have hdiv : JsNumber.fin ((total : ℤ) : ℚ) / JsNumber.fin ((count : ℤ) : ℚ)
      = .ofRat ((total : ℚ) / count) := by
    change JsNumber.div _ _ = _
    rw [JsNumber.div, Int.cast_natCast, Int.cast_natCast, if_neg hcountQ.ne']
  have hle : total / count ≤ total := Nat.div_le_self total count
  have hexact : ((total / count * count + total % count : ℕ) : ℚ) = total := by
    rw [Nat.div_add_mod']
  have hmod : ((total % count + 1 : ℕ) : ℚ) ≤ count := by exact_mod_cast Nat.mod_lt total hcount
  push_cast at hexact hmod
  rw [hdiv, Int.cast_natCast]
  refine JsNumber.floor_ofRat (n := 7) ?_ ?_ (by norm_num) ?_
  · rw [le_div_iff₀ hcountQ]
    have : (0 : ℚ) ≤ (total % count : ℕ) := Nat.cast_nonneg _
    linarith
  · -- The remainder is at most `count - 1`, and a hundredth is more than a step of the grid.
    have hstep : (count : ℚ) * (1 / 2 ^ 7) ≤ 1 := by
      have : (count : ℚ) ≤ 100 := by exact_mod_cast hhundred
      norm_num
      linarith
    have hsum : (total : ℚ) + count * (1 / 2 ^ 7) ≤ ((total / count : ℕ) + 1) * count := by
      linarith
    have hquotient : (total : ℚ) / count + 1 / 2 ^ 7
        = (total + count * (1 / 2 ^ 7)) / count := by
      rw [add_div, mul_div_assoc, mul_div_cancel₀ _ hcountQ.ne']
    rw [hquotient, div_le_iff₀ hcountQ]
    exact hsum
  · rw [maxSliceExposureMsats] at hsmall
    rw [JsNumber.maxExact]
    omega

theorem splitEven_eq {total count : ℕ} (hcount : 0 < count) (hhundred : count ≤ 100)
    (hsmall : total ≤ 100 * maxSliceExposureMsats) :
    splitEven (.fin ((total : ℤ) : ℚ)) (.fin ((count : ℤ) : ℚ))
      = describe 0 (evenAmounts count total) := by
  have hexact := Nat.div_add_mod' total count
  have hmod := Nat.mod_lt total hcount
  rw [maxSliceExposureMsats] at hsmall
  have hproduct : JsNumber.fin (((total / count : ℕ) : ℤ) : ℚ) * JsNumber.fin ((count : ℤ) : ℚ)
      = .fin (((total / count * count : ℕ) : ℤ) : ℚ) := by
    have hbound : (((total / count : ℕ) : ℤ) * (count : ℤ)).natAbs ≤ JsNumber.maxExact := by
      rw [← Nat.cast_mul, Int.natAbs_natCast, JsNumber.maxExact]
      omega
    rw [JsNumber.mul_intCast hbound, Nat.cast_mul]
  have hremainder : JsNumber.fin ((total : ℤ) : ℚ)
      - JsNumber.fin (((total / count * count : ℕ) : ℤ) : ℚ)
      = .fin (((total % count : ℕ) : ℤ) : ℚ) := by
    have hdifference : (total : ℤ) - (total / count * count : ℕ) = (total % count : ℕ) := by omega
    have hbound : ((total : ℤ) - (total / count * count : ℕ)).natAbs ≤ JsNumber.maxExact := by
      rw [hdifference, Int.natAbs_natCast, JsNumber.maxExact]
      omega
    rw [JsNumber.sub_intCast hbound, hdifference]
  have hpositions : positionsBelow (.fin ((count : ℤ) : ℚ)) = List.range' 0 count := by
    rw [positionsBelow, Int.ceil_intCast, Int.toNat_natCast, List.range_eq_range']
  rw [splitEven, floor_quotient hcount hhundred hsmall, hproduct, hremainder, hpositions,
    evenAmounts, List.range_eq_range', describe_map_range]
  refine List.map_congr_left fun i hi => ?_
  have hlt : i < count := by
    have := List.mem_range'_1.mp hi
    omega
  have hindex : JsNumber.ofInt i = .fin ((i : ℤ) : ℚ) :=
    JsNumber.ofInt_eq_fin (by rw [Int.natAbs_natCast, JsNumber.maxExact]; omega)
  have hle : total / count ≤ total := Nat.div_le_self total count
  have hcompare : JsNumber.ofInt i < .fin (((total % count : ℕ) : ℤ) : ℚ) ↔ i < total % count := by
    rw [hindex, JsNumber.intCast_lt, Nat.cast_lt]
  have hadd {m : ℕ} (hm : m ≤ 1) : JsNumber.fin (((total / count : ℕ) : ℤ) : ℚ)
      + .fin ((m : ℤ) : ℚ) = .fin (((total / count + m : ℕ) : ℤ) : ℚ) := by
    have hbound : (((total / count : ℕ) : ℤ) + (m : ℤ)).natAbs ≤ JsNumber.maxExact := by
      rw [← Nat.cast_add, Int.natAbs_natCast, JsNumber.maxExact]
      omega
    rw [JsNumber.add_intCast hbound, Nat.cast_add]
  congr 1
  rcases Nat.lt_or_ge i (total % count) with hextra | hplain
  · rw [if_pos (hcompare.mpr hextra), if_pos hextra, JsNumber.one_eq_fin]
    exact hadd le_rfl
  · rw [if_neg (fun h => hplain.not_gt (hcompare.mp h)), if_neg hplain.not_gt, JsNumber.zero_eq_fin]
    exact hadd (m := 0) (Nat.zero_le 1)

/-! ### Accepted plans -/

def sliceAmounts (total count : ℕ) : List ℕ :=
  if count ≤ slicesForCap total then cappedAmounts maxSliceExposureMsats total
  else evenAmounts count total

theorem length_sliceAmounts (total count : ℕ) :
    (sliceAmounts total count).length = max count (slicesForCap total) := by
  unfold sliceAmounts
  split_ifs with h
  · rw [length_cappedAmounts, max_eq_right h]
    rfl
  · rw [evenAmounts, List.length_map, List.length_range, max_eq_left (not_le.mp h).le]

theorem Sliceable.sum_sliceAmounts {total count : ℕ} (h : Sliceable total count) :
    (sliceAmounts total count).sum = total := by
  unfold sliceAmounts
  split_ifs
  · exact sum_cappedAmounts h.total_pos
  · exact sum_evenAmounts h.one_le

/-- The plan that `deriveSlicePlan` gives. -/
def slicePlanOf (total count : ℕ) : SlicePlan where
  sliceCount := .fin ((max count (slicesForCap total) : ℕ) : ℤ)
  tranches := describe 0 (sliceAmounts total count)
  maxSliceMsats := ((describe 0 (sliceAmounts total count)).map
    TrancheDescriptor.amountMsats).foldl JsNumber.max .negInf
  capForcedUp := count < slicesForCap total

theorem max_natCast (m n : ℕ) : JsNumber.max (.fin ((m : ℤ) : ℚ)) (.fin ((n : ℤ) : ℚ))
    = .fin (((max m n : ℕ) : ℤ) : ℚ) := by
  rcases le_total m n with hle | hle
  · rw [max_eq_right hle]
    exact JsNumber.max_eq_right (JsNumber.intCast_le.mpr (by exact_mod_cast hle))
  · rw [max_eq_left hle]
    exact JsNumber.max_eq_left (JsNumber.intCast_le.mpr (by exact_mod_cast hle))

theorem finalTranches_eq {total count : ℕ} (hhundred : count ≤ 100)
    (hfew : slicesForCap total ≤ 100) (hsmall : total ≤ 100 * maxSliceExposureMsats) :
    (if (JsNumber.fin (((max count (slicesForCap total) : ℕ) : ℤ) : ℚ)).strictEq
        (.ofInt (describe 0 (cappedAmounts maxSliceExposureMsats total)).length)
      then describe 0 (cappedAmounts maxSliceExposureMsats total)
      else splitEven (.fin ((total : ℤ) : ℚ))
        (.fin (((max count (slicesForCap total) : ℕ) : ℤ) : ℚ)))
      = describe 0 (sliceAmounts total count) := by
  have hlength : JsNumber.ofInt (cappedAmounts maxSliceExposureMsats total).length
      = .fin ((slicesForCap total : ℤ) : ℚ) := by
    rw [length_cappedAmounts]
    exact JsNumber.ofInt_eq_fin (n := slicesForCap total)
      (by rw [Int.natAbs_natCast, JsNumber.maxExact]; omega)
  rw [length_describe, hlength, JsNumber.strictEq, sliceAmounts]
  rcases Nat.lt_or_ge (slicesForCap total) count with hlt | hle
  · rw [max_eq_left hlt.le, if_neg hlt.not_ge, splitEven_eq (by omega) hhundred hsmall, if_neg]
    rw [Bool.and_eq_true, decide_eq_true_eq, decide_eq_true_eq, JsNumber.intCast_inj]
    omega
  · rw [max_eq_right hle, if_pos hle, if_pos]
    rw [Bool.and_eq_true, decide_eq_true_eq, decide_eq_true_eq]
    exact ⟨JsNumber.noConfusion, rfl⟩

theorem Sliceable.deriveSlicePlan_eq {total count : ℕ} (h : Sliceable total count) :
    deriveSlicePlan ⟨.fin ((total : ℤ) : ℚ), .fin ((count : ℤ) : ℚ)⟩
      = .ok (slicePlanOf total count) := by
  obtain ⟨hone, hhundred, hroom, hlt, hfew⟩ := h
  have hpos : 0 < total := by omega
  have hcountSafe : (JsNumber.fin ((count : ℤ) : ℚ)).isSafeInteger = true :=
    JsNumber.isSafeInteger_iff.mpr
      ⟨count, by rw [Int.natAbs_natCast, JsNumber.maxExact]; omega, rfl⟩
  have hcount : ¬ (!(JsNumber.fin ((count : ℤ) : ℚ)).isSafeInteger
      ∨ JsNumber.fin ((count : ℤ) : ℚ) < 1) := by
    rw [hcountSafe, JsNumber.one_eq_fin, JsNumber.intCast_lt]
    simp only [Bool.not_true, Bool.false_eq_true, false_or]
    omega
  have hmost : ¬ maxSliceCount < JsNumber.fin ((count : ℤ) : ℚ) := by
    rw [maxSliceCount_eq, JsNumber.fin_lt_fin]
    exact_mod_cast Nat.not_lt.mpr hhundred
  have hthousand : (1000 : JsNumber) = .fin ((1000 : ℤ) : ℚ) := JsNumber.ofInt_eq_fin (by decide)
  have hbound : ((count : ℤ) * 1000).natAbs ≤ JsNumber.maxExact := by
    rw [JsNumber.maxExact]
    omega
  have henough : ¬ JsNumber.fin ((total : ℤ) : ℚ) < JsNumber.fin ((count : ℤ) : ℚ) * 1000 := by
    rw [hthousand, JsNumber.mul_intCast hbound, JsNumber.intCast_lt]
    omega
  have hfloor : ¬ maxSliceCount < JsNumber.fin ((slicesForCap total : ℤ) : ℚ) := by
    rw [maxSliceCount_eq, JsNumber.fin_lt_fin]
    exact_mod_cast Nat.not_lt.mpr hfew
  have hsmall : total ≤ 100 * maxSliceExposureMsats :=
    (slicesForCap_bounds hpos).2.trans (Nat.mul_le_mul_right _ hfew)
  have hceiling : JsNumber.ofInt maxSliceExposureMsats
      = .fin ((maxSliceExposureMsats : ℤ) : ℚ) := JsNumber.ofInt_eq_fin (by decide)
  rw [deriveSlicePlan]
  dsimp only
  rw [if_neg hcount, if_neg hmost, if_neg henough, minSlicesForCap_of_le hpos hlt hfew, ok_bind,
    if_neg hfloor, hceiling, splitTranches_eq hpos hlt (by decide) (by decide), ok_bind,
    max_natCast, finalTranches_eq hhundred hfew hsmall, slicePlanOf]
  refine congrArg Except.ok ?_
  congr 1
  exact decide_eq_decide.mpr (JsNumber.intCast_lt.trans Nat.cast_lt)

/-- What is accepted is within the bounds. -/
theorem sliceable_of_ok {params : SlicePlanParams} {plan : SlicePlan}
    (h : deriveSlicePlan params = .ok plan) :
    ∃ total count : ℕ, Sliceable total count ∧
      params = ⟨.fin ((total : ℤ) : ℚ), .fin ((count : ℤ) : ℚ)⟩ := by
  obtain ⟨totalMsats, userCount⟩ := params
  rw [deriveSlicePlan] at h
  dsimp only at h
  rw [ite_error_eq_ok, ite_error_eq_ok, ite_error_eq_ok, bind_eq_ok] at h
  obtain ⟨hcount, hmost, henough, floor, hfloor, h⟩ := h
  have hmany := (ite_error_eq_ok.mp h).1
  have hchecked := (ite_error_eq_ok.mp hfloor).1
  obtain ⟨htotalSafe, htotalPos⟩ := wholeMsats_of_checked hchecked
  obtain ⟨hcountSafe, hcountPos⟩ := not_or.mp hcount
  obtain ⟨t, ht, rfl⟩ := JsNumber.isSafeInteger_iff.mp htotalSafe
  obtain ⟨n, hn, rfl⟩ := JsNumber.isSafeInteger_iff.mp
    (by simpa using hcountSafe : userCount.isSafeInteger = true)
  rw [JsNumber.zero_eq_fin, ← Int.cast_zero, JsNumber.intCast_lt] at htotalPos
  rw [JsNumber.one_eq_fin, JsNumber.intCast_lt] at hcountPos
  have hhundred : n ≤ 100 := by
    rw [maxSliceCount_eq, ← Int.cast_natCast, JsNumber.intCast_lt] at hmost
    push_cast at hmost
    omega
  have hthousand : (1000 : JsNumber) = .fin ((1000 : ℤ) : ℚ) := JsNumber.ofInt_eq_fin (by decide)
  have hbound : (n * 1000).natAbs ≤ JsNumber.maxExact := by
    rw [JsNumber.maxExact]
    omega
  rw [hthousand, JsNumber.mul_intCast hbound, JsNumber.intCast_lt] at henough
  obtain ⟨total, rfl⟩ := Int.eq_ofNat_of_zero_le (a := t) (by omega)
  obtain ⟨count, rfl⟩ := Int.eq_ofNat_of_zero_le (a := n) (by omega)
  rw [Int.natAbs_natCast] at ht
  refine ⟨total, count, ⟨by omega, by omega, by omega, ht, ?_⟩, rfl⟩
  by_contra hlarge
  obtain ⟨floor', hfloor', hlt⟩ := minSlicesForCap_of_lt (by omega) ht (not_le.mp hlarge)
  rw [hfloor'] at hfloor
  exact hmany (Except.ok.inj hfloor ▸ hlt)

/-! ### Exactness -/

/-- What is promised of the slices of a total, with the preferred count of the user. -/
structure ExactSlices (params : SlicePlanParams) (plan : SlicePlan) : Prop where
  /-- The slices are numbered from zero on. -/
  numbered : plan.tranches.map TrancheDescriptor.index
    = (List.range plan.tranches.length).map fun i : ℕ => JsNumber.ofInt i
  whole : ∀ t ∈ plan.tranches, t.amountMsats = .fin (t.msats : ℚ)
  sum : params.totalMsats = .fin (((plan.tranches.map TrancheDescriptor.msats).sum : ℤ) : ℚ)
  count : plan.sliceCount = .ofInt plan.tranches.length
  /-- There are as many as the user or the ceiling asks for, over the exact quotient. -/
  number : plan.sliceCount = JsNumber.max params.userCount (.ofInt
    ⌈((plan.tranches.map TrancheDescriptor.msats).sum : ℚ) / maxSliceExposureMsats⌉)
  hundred : plan.tranches.length ≤ 100
  /-- No slice is above the ceiling, and none below a sat. -/
  amounts : ∀ t ∈ plan.tranches, 1000 ≤ t.msats ∧ t.msats ≤ maxSliceExposureMsats

/-- The ceiling asks for as many slices as the user at least, and the last of them is left with less
than a sat. -/
def LeavesStub (params : SlicePlanParams) : Prop :=
  ∃ total count : ℕ, params = ⟨.fin ((total : ℤ) : ℚ), .fin ((count : ℤ) : ℚ)⟩ ∧
    count ≤ slicesForCap total ∧
      0 < total % maxSliceExposureMsats ∧ total % maxSliceExposureMsats < 1000

theorem LeavesStub.iff {total count : ℕ} :
    LeavesStub ⟨.fin ((total : ℤ) : ℚ), .fin ((count : ℤ) : ℚ)⟩ ↔
      count ≤ slicesForCap total ∧
        0 < total % maxSliceExposureMsats ∧ total % maxSliceExposureMsats < 1000 := by
  constructor
  · rintro ⟨total', count', heq, h⟩
    obtain ⟨htotal, hcount⟩ := SlicePlanParams.mk.inj heq
    rw [JsNumber.intCast_inj, Nat.cast_inj] at htotal hcount
    subst htotal hcount
    exact h
  · exact fun h => ⟨total, count, rfl, h⟩

namespace Sliceable

variable {total count : ℕ}

theorem capped_amounts (h : Sliceable total count) :
    (∀ amount ∈ cappedAmounts maxSliceExposureMsats total, 1000 ≤ amount) ↔
      ¬ (0 < total % maxSliceExposureMsats ∧ total % maxSliceExposureMsats < 1000) := by
  have hpos := h.total_pos
  have hlast : 1000 ≤ (total - 1) % maxSliceExposureMsats + 1 ↔
      ¬ (0 < total % maxSliceExposureMsats ∧ total % maxSliceExposureMsats < 1000) := by
    rw [maxSliceExposureMsats]
    omega
  rw [cappedAmounts, ← hlast]
  constructor
  · exact fun hall => hall _ (List.mem_append_right _ (List.mem_singleton_self _))
  · intro hle amount hmem
    rcases List.mem_append.mp hmem with hfull | hrest
    · rw [List.eq_of_mem_replicate hfull, maxSliceExposureMsats]
      omega
    · rw [List.mem_singleton.mp hrest]
      exact hle

variable {amount : ℕ}

theorem capped_le (h : amount ∈ cappedAmounts maxSliceExposureMsats total) :
    amount ≤ maxSliceExposureMsats := by
  rcases List.mem_append.mp h with hfull | hrest
  · exact (List.eq_of_mem_replicate hfull).le
  · rw [List.mem_singleton.mp hrest]
    exact Nat.mod_lt _ (by decide)

theorem even_amounts (h : Sliceable total count) (hmore : slicesForCap total < count)
    (hmem : amount ∈ evenAmounts count total) : 1000 ≤ amount ∧ amount ≤ maxSliceExposureMsats := by
  obtain ⟨i, -, rfl⟩ := List.mem_map.mp hmem
  have hbase : 1000 ≤ total / count :=
    (Nat.le_div_iff_mul_le (by omega)).mpr (by have := h.room; omega)
  have hbelow : total / count < maxSliceExposureMsats := by
    rw [Nat.div_lt_iff_lt_mul (by omega), mul_comm]
    refine (slicesForCap_bounds h.total_pos).2.trans_lt ?_
    exact Nat.mul_lt_mul_of_pos_right hmore (by decide)
  split_ifs <;> omega

theorem sliceAmounts_le (h : Sliceable total count)
    (hmem : amount ∈ sliceAmounts total count) : amount ≤ maxSliceExposureMsats := by
  unfold sliceAmounts at hmem
  split_ifs at hmem with hcount
  · exact capped_le hmem
  · exact (h.even_amounts (not_le.mp hcount) hmem).2

theorem thousand_le_iff (h : Sliceable total count) :
    (∀ amount ∈ sliceAmounts total count, 1000 ≤ amount) ↔
      ¬ LeavesStub ⟨.fin ((total : ℤ) : ℚ), .fin ((count : ℤ) : ℚ)⟩ := by
  rw [LeavesStub.iff, sliceAmounts]
  split_ifs with hcount
  · rw [h.capped_amounts]
    exact not_congr (by simp only [hcount, true_and])
  · refine iff_of_true (fun amount hmem => (h.even_amounts (not_le.mp hcount) hmem).1) ?_
    exact fun hstub => hcount hstub.1

theorem msats_iff (h : Sliceable total count) :
    (∀ t ∈ (slicePlanOf total count).tranches, 1000 ≤ t.msats ∧ t.msats ≤ maxSliceExposureMsats) ↔
      ∀ amount ∈ sliceAmounts total count, 1000 ≤ amount := by
  constructor
  · intro hall amount hmem
    have hmap : (amount : ℤ) ∈ (slicePlanOf total count).tranches.map TrancheDescriptor.msats := by
      rw [slicePlanOf, describe_msats]
      exact List.mem_map_of_mem hmem
    obtain ⟨t, ht, hmsats⟩ := List.mem_map.mp hmap
    have := (hall t ht).1
    omega
  · intro hall t ht
    obtain ⟨amount, hmem, hmsats, -⟩ := describe_whole ht
    have hlow := hall amount hmem
    have hhigh := h.sliceAmounts_le hmem
    omega

end Sliceable

/-- A plan that `deriveSlicePlan` gives is exact if and only if the user wants more slices than the
ceiling asks for, or the last of those holds a sat. -/
theorem deriveSlicePlan_exact {params : SlicePlanParams} {plan : SlicePlan}
    (h : deriveSlicePlan params = .ok plan) : ExactSlices params plan ↔ ¬ LeavesStub params := by
  obtain ⟨total, count, hfits, rfl⟩ := sliceable_of_ok h
  rw [hfits.deriveSlicePlan_eq] at h
  obtain rfl := Except.ok.inj h
  rw [← hfits.thousand_le_iff, ← hfits.msats_iff]
  have hlength : (slicePlanOf total count).tranches.length = max count (slicesForCap total) := by
    rw [slicePlanOf, length_describe, length_sliceAmounts]
  have hfew : max count (slicesForCap total) ≤ 100 := max_le hfits.le_hundred hfits.few
  have hsum : ((slicePlanOf total count).tranches.map TrancheDescriptor.msats).sum
      = (total : ℤ) := by
    rw [slicePlanOf, describe_msats, ← Nat.cast_list_sum, hfits.sum_sliceAmounts]
  have hceil : JsNumber.ofInt (slicesForCap total) = .fin ((slicesForCap total : ℤ) : ℚ) :=
    JsNumber.ofInt_eq_fin (by
      have := hfits.few
      rw [Int.natAbs_natCast, JsNumber.maxExact]
      omega)
  have hcount : JsNumber.ofInt (max count (slicesForCap total) : ℕ)
      = .fin (((max count (slicesForCap total) : ℕ) : ℤ) : ℚ) :=
    JsNumber.ofInt_eq_fin (by rw [Int.natAbs_natCast, JsNumber.maxExact]; omega)
  constructor
  · exact fun hexact => hexact.amounts
  · intro hamounts
    constructor
    · rw [slicePlanOf, describe_index, length_describe, List.range_eq_range']
    · intro t ht
      obtain ⟨_, -, -, hwhole⟩ := describe_whole ht
      exact hwhole
    · rw [hsum]
    · rw [hlength, hcount]
      rfl
    · rw [hsum, Int.cast_natCast, ceil_eq_slicesForCap hfits.total_pos, hceil, max_natCast]
      rfl
    · rw [hlength]
      exact hfew
    · exact hamounts

/-- Five million sats for a user who wants two slices: three, as the ceiling asks. -/
theorem five_million_exact : ∃ plan,
    deriveSlicePlan ⟨.fin ((5000000000 : ℕ) : ℤ), .fin ((2 : ℕ) : ℤ)⟩ = .ok plan ∧
      ExactSlices ⟨.fin ((5000000000 : ℕ) : ℤ), .fin ((2 : ℕ) : ℤ)⟩ plan := by
  have hfits : Sliceable 5000000000 2 := by constructor <;> decide
  refine ⟨_, hfits.deriveSlicePlan_eq, (deriveSlicePlan_exact hfits.deriveSlicePlan_eq).mpr ?_⟩
  rw [LeavesStub.iff]
  decide

/-- Two million sats and one msat: the second slice holds the msat alone. -/
theorem one_msat_slice : ∃ plan,
    deriveSlicePlan ⟨.fin ((2000000001 : ℕ) : ℤ), .fin ((1 : ℕ) : ℤ)⟩ = .ok plan ∧
      plan.tranches.map TrancheDescriptor.msats = [2000000000, 1] ∧
        ¬ ExactSlices ⟨.fin ((2000000001 : ℕ) : ℤ), .fin ((1 : ℕ) : ℤ)⟩ plan := by
  have hfits : Sliceable 2000000001 1 := by constructor <;> decide
  have hmsats : (slicePlanOf 2000000001 1).tranches.map TrancheDescriptor.msats
      = [2000000000, 1] := by
    rw [slicePlanOf, describe_msats]
    decide
  refine ⟨_, hfits.deriveSlicePlan_eq, hmsats, fun hexact => ?_⟩
  have hmem : (1 : ℤ) ∈ (slicePlanOf 2000000001 1).tranches.map TrancheDescriptor.msats := by
    rw [hmsats]
    decide
  obtain ⟨t, ht, hone⟩ := List.mem_map.mp hmem
  have := (hexact.amounts t ht).1
  omega

end ChamaEscrow
