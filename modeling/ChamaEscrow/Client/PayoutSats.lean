import ChamaEscrow.Client.ClaimAndPayout
import ChamaEscrow.Js.Whole
import ChamaEscrow.Library.Bisect

/-!
# The largest payout

`maxLightningPayoutSats` (`payments/lightning-fees.ts`) searches, by halves, for the largest amount
whose cost fits a balance, the cost being the amount with the fee that is held back for it.

The search works in binary64 numbers.  Their sums of two ends are exact up to `2 ^ 52` sats, twice
as many as there will ever be; above, the upper middle of two neighbours can be the lower one, and
the loop then runs forever.

* `searchReturns_bisect`: below that bound the loop is a search by halves in the natural numbers.
* `max_payout_optimal`: what it returns is the optimum, it grows with the balance, and a balance
  covers an expected amount at most as large just when that amount pays out anything at all.
-/

namespace ChamaEscrow

open Js Library

/-! ### The loop -/

def payoutCost (sats : JsNumber) : JsNumber :=
  sats * 1000 + estimateLightningSendFeeMsats (sats * 1000)

def nextPayout (lo hi : JsNumber) : JsNumber := ((lo + hi).divBy 2).ceil

inductive SearchReturns (balance : JsNumber) : (lo hi sats : JsNumber) → Prop
  | done {lo hi} : ¬ lo < hi → SearchReturns balance lo hi lo
  | up {lo hi sats} : lo < hi → payoutCost (nextPayout lo hi) ≤ balance →
      SearchReturns balance (nextPayout lo hi) hi sats → SearchReturns balance lo hi sats
  | down {lo hi sats} : lo < hi → ¬ payoutCost (nextPayout lo hi) ≤ balance →
      SearchReturns balance lo (nextPayout lo hi - 1) sats → SearchReturns balance lo hi sats

/-- The largest balance that is considered: `2 ^ 52` sats. -/
def maxBalance : JsNumber := .ofInt (2 ^ 52 * 1000)

/-! ### The cost -/

section Cost

open JsNumber

theorem thousand_eq_fin : (1000 : JsNumber) = fin (1000 : ℤ) := ofInt_eq_fin (by decide)

theorem zero_le_ofInt (n : ℕ) : (0 : JsNumber) ≤ ofInt n := ofInt_mono (m := 0) (by omega)

def proportionalFee (amount : JsNumber) : JsNumber := ((amount * 5000).divBy 1000000).ceil

theorem proportionalFee_mono {a b : JsNumber} (h : a ≤ b) :
    proportionalFee a ≤ proportionalFee b := by
  have hfive : (5000 : JsNumber) = fin (5000 : ℤ) := ofInt_eq_fin (by decide)
  unfold proportionalFee
  rw [hfive]
  exact ceil_mono (divBy_mono (mul_fin_mono (by norm_num) h))

theorem estimateLightningSendFeeMsats_eq (a : JsNumber) :
    estimateLightningSendFeeMsats a =
      ofInt 2000 + proportionalFee (max 0 a.floor) + ofInt 500 := rfl

theorem proportionalFee_nonneg {a : JsNumber} (ha : a ≠ nan) :
    0 ≤ proportionalFee (max 0 a.floor) := by
  have hfloor : a.floor ≠ nan := by
    cases a with
    | fin q => exact ofRat_ne_nan _
    | nan => exact absurd rfl ha
    | _ => exact (by decide)
  have hzero : proportionalFee 0 = 0 := by decide +kernel
  have h : proportionalFee 0 ≤ proportionalFee (max 0 a.floor) :=
    proportionalFee_mono (le_max_left (ofInt_ne_nan 0) hfloor)
  rwa [hzero] at h

theorem fee_mono {a b : JsNumber} (h : a ≤ b) :
    estimateLightningSendFeeMsats a ≤ estimateLightningSendFeeMsats b := by
  have hpart : proportionalFee (max 0 a.floor) ≤ proportionalFee (max 0 b.floor) :=
    proportionalFee_mono (max_mono (le_refl (ofInt_ne_nan 0)) (floor_mono h))
  have hnonneg := proportionalFee_nonneg (ne_nan_of_le h).1
  have hbase := zero_le_ofInt 2000
  have hstart : ofInt 2000 + proportionalFee (max 0 a.floor)
      ≤ ofInt 2000 + proportionalFee (max 0 b.floor) :=
    add_mono (le_refl (ofInt_ne_nan _)) hpart hbase hnonneg
  have hsum : (0 : JsNumber) ≤ ofInt 2000 + proportionalFee (max 0 a.floor) :=
    add_nonneg hbase hnonneg
  rw [estimateLightningSendFeeMsats_eq, estimateLightningSendFeeMsats_eq]
  exact add_mono hstart (le_refl (ofInt_ne_nan _)) hsum (zero_le_ofInt 500)

theorem fee_ge {a : JsNumber} (ha : a ≠ nan) : ofInt 2500 ≤ estimateLightningSendFeeMsats a := by
  have hbase := zero_le_ofInt 2000
  have hstart : ofInt 2000 + 0 ≤ ofInt 2000 + proportionalFee (max 0 a.floor) :=
    add_mono (le_refl (ofInt_ne_nan _)) (proportionalFee_nonneg ha) hbase
      (le_refl (ofInt_ne_nan 0))
  have hbare : ofInt 2000 + 0 = ofInt 2000 := @add_ofNat 2000 0 (by decide)
  have hfixed : ofInt 2000 + ofInt 500 = ofInt 2500 := @add_ofNat 2000 500 (by decide)
  rw [hbare] at hstart
  rw [estimateLightningSendFeeMsats_eq, ← hfixed]
  exact add_mono hstart (le_refl (ofInt_ne_nan _)) hbase (zero_le_ofInt 500)

theorem isWhole_fee (a : JsNumber) : IsWhole (estimateLightningSendFeeMsats a) :=
  ((isWhole_ofInt 2000).add (isWhole_ceil _)).add (isWhole_ofInt 500)

theorem isWhole_payoutCost (n : ℕ) : IsWhole (payoutCost (ofInt n)) := by
  unfold payoutCost
  rw [thousand_eq_fin]
  exact ((isWhole_ofInt n).mul_fin (by norm_num)).add (isWhole_fee _)

theorem invoice_nonneg (n : ℕ) : (0 : JsNumber) ≤ ofInt n * 1000 := by
  rw [thousand_eq_fin]
  exact mul_fin_nonneg (by norm_num) (zero_le_ofInt n)

theorem payoutCost_mono {m n : ℕ} (h : m ≤ n) : payoutCost (ofInt m) ≤ payoutCost (ofInt n) := by
  have hinvoice : ofInt m * 1000 ≤ ofInt n * 1000 := by
    rw [thousand_eq_fin]
    exact mul_fin_mono (by norm_num) (ofInt_mono (by omega))
  have hfee : (0 : JsNumber) ≤ estimateLightningSendFeeMsats (ofInt m * 1000) :=
    le_trans (zero_le_ofInt 2500) (fee_ge (ne_nan_of_le hinvoice).1)
  exact add_mono hinvoice (fee_mono hinvoice) (invoice_nonneg m) hfee

theorem payoutCost_ge (n : ℕ) : ofInt 2500 ≤ payoutCost (ofInt n) := by
  have hinvoice := invoice_nonneg n
  have h := add_mono hinvoice (fee_ge (ne_nan_of_le hinvoice).2) (le_refl (ofInt_ne_nan 0))
    (zero_le_ofInt 2500)
  rwa [show (0 : JsNumber) + ofInt 2500 = ofInt 2500 from @add_ofNat 0 2500 (by decide)] at h

end Cost

/-! ### The interval -/

section Interval

open JsNumber

variable {B : ℕ}

theorem payoutCost_above (hdouble : (fin (B : ℚ)).isDouble = true) (hB : B ≤ 2 ^ 52 * 1000) {n : ℕ}
    (hn : B < 1000 * n) : fin (B : ℚ) < payoutCost (ofInt n) := by
  -- the first such payout is an exact integer
  obtain ⟨first, hfirst, hexact, hle⟩ : ∃ first : ℕ,
      B < first * 1000 ∧ first ≤ maxExact ∧ first ≤ n := by
    refine ⟨B / 1000 + 1, ?_, ?_, ?_⟩
    · omega
    · unfold maxExact
      omega
    · omega
  have hinvoice : fin (B : ℚ) ≤ ofInt first * 1000 := by
    rw [ofInt_natCast hexact, thousand_eq_fin]
    have hrat : (B : ℚ) ≤ (first : ℚ) * (1000 : ℤ) := by exact_mod_cast hfirst.le
    exact fin_le_ofRat hdouble hrat
  have hfixed : ofInt 2500 = fin (2500 : ℤ) := ofInt_eq_fin (by decide)
  have hfee : fin (2500 : ℤ) ≤ estimateLightningSendFeeMsats (ofInt first * 1000) :=
    hfixed ▸ fee_ge (ne_nan_of_le hinvoice).2
  have hzero : (0 : JsNumber) ≤ fin (B : ℚ) := by
    rw [zero_eq_fin]
    exact fin_le_fin.mpr (Nat.cast_nonneg B)
  have hsum : fin (B : ℚ) + fin (2500 : ℤ) ≤ payoutCost (ofInt first) :=
    add_mono hinvoice hfee hzero (hfixed ▸ zero_le_ofInt 2500)
  -- the fixed part of the fee is more than a step of the grid there
  have hsize : ((B : ℚ) + (2500 : ℤ)) < 2 ^ ((10 : ℤ) + 53) := by
    have : (B : ℚ) ≤ 2 ^ 52 * 1000 := by exact_mod_cast hB
    norm_num
    linarith
  have hplace : lastPlace ((B : ℚ) + (2500 : ℤ)) ≤ 10 :=
    lastPlace_le (by positivity) (by norm_num) hsize
  have hgrid : (2 : ℚ) ^ lastPlace ((B : ℚ) + (2500 : ℤ)) ≤ 2 ^ (10 : ℤ) :=
    zpow_le_zpow_right₀ (by norm_num) hplace
  have hfelt : fin (B : ℚ) < fin (B : ℚ) + fin (2500 : ℤ) := by
    refine lt_ofRat (Nat.cast_nonneg B) ?_
    norm_num at hgrid ⊢
    linarith
  exact lt_of_lt_of_le hfelt (le_trans hsum (payoutCost_mono hle))

def upperEnd (balance : JsNumber) : JsNumber := (balance.divBy 1000).floor

theorem upperEnd_mono {a b : JsNumber} (h : a ≤ b) : upperEnd a ≤ upperEnd b :=
  floor_mono (divBy_mono h)

theorem upperEnd_eq (hB : B ≤ 2 ^ 52 * 1000) :
    ∃ H : ℕ, upperEnd (fin (B : ℚ)) = ofInt H ∧ H ≤ 2 ^ 52 ∧ B < 1000 * (H + 1) := by
  obtain ⟨whole, hwhole, hrest, hexact⟩ : ∃ whole : ℕ,
      whole * 1000 ≤ B ∧ B < 1000 * (whole + 1) ∧ whole ≤ maxExact := by
    refine ⟨B / 1000, Nat.div_mul_le_self B 1000, ?_, ?_⟩
    · omega
    · unfold maxExact
      omega
  have hlow : fin (whole : ℚ) ≤ upperEnd (fin (B : ℚ)) := by
    have hdiv : fin (whole : ℚ) ≤ (fin (B : ℚ)).divBy 1000 := by
      refine fin_le_ofRat (isDouble_fin.mpr (ofInt_natCast hexact)) ?_
      rw [le_div_iff₀ (by norm_num)]
      exact_mod_cast hwhole
    have hfloor : (fin (whole : ℚ)).floor = fin (whole : ℚ) :=
      floor_intCast (n := whole) (by simpa using hexact)
    rw [← hfloor]
    exact floor_mono hdiv
  have hhigh : upperEnd (fin (B : ℚ)) ≤ fin ((2 ^ 52 : ℕ) : ℚ) := by
    have hmost : upperEnd (fin ((2 ^ 52 * 1000 : ℕ) : ℚ)) = fin ((2 ^ 52 : ℕ) : ℚ) := by
      decide +kernel
    rw [← hmost]
    exact upperEnd_mono (fin_le_fin.mpr (by exact_mod_cast hB))
  obtain ⟨x, hx, hbelow, habove⟩ := eq_fin_of_between hlow hhigh
  obtain ⟨H, rfl⟩ := isWhole_floor _ x hx
  have hHlow : (whole : ℤ) ≤ H := by exact_mod_cast hbelow
  have hHhigh : H ≤ (2 ^ 52 : ℕ) := by exact_mod_cast habove
  have hnat : H = (H.toNat : ℕ) := by omega
  refine ⟨H.toNat, ?_, by omega, by omega⟩
  rw [hx, ← hnat]
  exact (ofInt_eq_fin (by unfold maxExact; omega)).symm

theorem nextPayout_eq {lo hi : ℕ} (hlt : lo < hi) (hhi : hi ≤ 2 ^ 52) :
    nextPayout (ofInt lo) (ofInt hi) = ofInt (middle lo hi) := by
  have hsum : lo + hi < maxExact := by
    unfold maxExact
    omega
  have hhalf : (fin ((lo + hi : ℕ) : ℚ)).divBy 2 = fin (((lo + hi : ℕ) : ℤ) / 2 : ℚ) := by
    rw [← Int.cast_natCast]
    exact ofRat_half hsum
  have hceil : ⌈(((lo + hi : ℕ) : ℤ) / 2 : ℚ)⌉ = middle lo hi := by
    rw [Int.ceil_eq_iff]
    have hle : lo + hi ≤ middle lo hi * 2 := by
      unfold middle
      omega
    have hgt : middle lo hi * 2 < lo + hi + 2 := by
      unfold middle
      omega
    have hleRat : (((lo + hi : ℕ) : ℤ) : ℚ) ≤ ((middle lo hi : ℕ) : ℤ) * 2 := by exact_mod_cast hle
    have hgtRat : (((middle lo hi : ℕ) : ℤ) : ℚ) * 2 < ((lo + hi : ℕ) : ℤ) + 2 := by
      exact_mod_cast hgt
    constructor <;> linarith
  rw [nextPayout, add_ofNat hsum.le, ofInt_natCast hsum.le, hhalf]
  show ofRat _ = ofInt _
  rw [hceil]
  rfl

theorem searchReturns_bisect (balance : JsNumber) {fuel lo hi : ℕ} (hle : lo ≤ hi)
    (hhi : hi ≤ 2 ^ 52) (hfuel : hi - lo < 2 ^ fuel) :
    SearchReturns balance (ofInt lo) (ofInt hi)
        (ofInt (bisect (fun n => payoutCost (ofInt n) ≤ balance) fuel lo hi)) ∧
      searchPayoutSats balance fuel (ofInt lo) (ofInt hi) =
        ofInt (bisect (fun n => payoutCost (ofInt n) ≤ balance) fuel lo hi) := by
  induction fuel generalizing lo hi with
  | zero =>
    have heq : hi = lo := by
      rw [pow_zero] at hfuel
      omega
    subst heq
    exact ⟨.done (not_lt_of_le (le_refl (ofInt_ne_nan _))), rfl⟩
  | succ fuel ih =>
    have hbound : lo ≤ maxExact ∧ hi ≤ maxExact := by
      unfold maxExact
      omega
    rw [bisect, searchPayoutSats]
    by_cases hlt : lo < hi
    · have hltJs : ofInt lo < ofInt hi := by
        rw [ofInt_natCast hbound.1, ofInt_natCast hbound.2]
        exact fin_lt_fin.mpr (by exact_mod_cast hlt)
      have hnext := nextPayout_eq hlt hhi
      obtain ⟨hlow, hhigh⟩ := middle_bounds hlt
      obtain ⟨hupper, hlower⟩ := halves_lt hlt hfuel
      rw [if_pos hlt, if_pos hltJs]
      show _ ∧ (if payoutCost (nextPayout (ofInt lo) (ofInt hi)) ≤ balance then _ else _) = _
      by_cases hfits : payoutCost (ofInt (middle lo hi)) ≤ balance
      · obtain ⟨hreturns, hsearch⟩ := ih hhigh hhi hupper
        rw [hnext, if_pos hfits, if_pos hfits]
        exact ⟨.up hltJs (hnext ▸ hfits) (hnext ▸ hreturns), by rw [← hsearch, ← hnext]; rfl⟩
      · have hdown : ofInt (middle lo hi) - 1 = ofInt (middle lo hi - 1 : ℕ) := by
          have hsub := sub_intCast (x := middle lo hi) (y := 1) (by unfold maxExact; omega)
          rw [one_eq_fin, ofInt_natCast (by omega), ofInt_natCast (by omega), ← Int.cast_natCast,
            hsub]
          congr 1
          push_cast [Nat.cast_sub (by omega : 1 ≤ middle lo hi)]
          rfl
        obtain ⟨hreturns, hsearch⟩ := ih (by omega) (by omega) hlower
        rw [hnext, if_neg hfits, if_neg hfits]
        refine ⟨.down hltJs (hnext ▸ hfits) ?_, ?_⟩
        · rw [hnext, hdown]
          exact hreturns
        · rw [← hsearch, ← hdown, ← hnext]
          rfl
    · have hnlt : ¬ ofInt lo < ofInt hi := by
        have heq : lo = hi := by omega
        rw [heq]
        exact not_lt_of_le (le_refl (ofInt_ne_nan _))
      rw [if_neg hlt, if_neg hnlt]
      exact ⟨.done hnlt, rfl⟩

end Interval

/-! ### The optimum -/

section Optimum

open JsNumber

variable {b e : JsNumber}

def wholeBalance (balanceMsats : JsNumber) : JsNumber := max 0 balanceMsats.floor

theorem wholeBalance_spec (hb : b.isDouble = true) (hmax : b ≤ maxBalance) :
    ∃ B : ℕ, wholeBalance b = fin (B : ℚ) ∧ (fin (B : ℚ)).isDouble = true ∧ B ≤ 2 ^ 52 * 1000 ∧
      ∀ a : JsNumber, IsWhole a → a.isDouble = true → 0 < a → (a ≤ fin (B : ℚ) ↔ a ≤ b) := by
  have hlimit : maxBalance = fin ((2 ^ 52 * 1000 : ℕ) : ℚ) := by decide +kernel
  cases b with
  | nan => cases hmax
  | posInf =>
    rw [hlimit] at hmax
    cases hmax
  | negInf =>
    have hnone : wholeBalance negInf = fin ((0 : ℕ) : ℚ) := by decide +kernel
    refine ⟨0, hnone, by decide +kernel, by norm_num, fun a _ _ hpos => ?_⟩
    have hzero : fin ((0 : ℕ) : ℚ) = 0 := by decide +kernel
    rw [hzero]
    constructor
    · exact fun h => absurd hpos (not_lt_of_le h)
    · exact fun h => absurd hpos (not_lt_of_le (le_trans h (negInf_le (ofInt_ne_nan 0))))
  | fin q =>
    have hfloorDouble : (fin q).floor.isDouble = true := isDouble_ofRat _
    have hpositive : (0 : JsNumber) ≤ wholeBalance (fin q) :=
      JsNumber.le_max_left (ofInt_ne_nan 0) (ofRat_ne_nan _)
    have hfloorMost : (fin q).floor ≤ fin ((2 ^ 52 * 1000 : ℕ) : ℚ) :=
      le_trans (floor_le (ne_nan_of_le hmax).1 hb) (hlimit ▸ hmax)
    have hmost : wholeBalance (fin q) ≤ fin ((2 ^ 52 * 1000 : ℕ) : ℚ) :=
      max_le (by decide +kernel) hfloorMost
    have hnumbers : (0 : JsNumber) ≠ nan ∧ (fin q).floor ≠ nan := ⟨ofInt_ne_nan 0, ofRat_ne_nan _⟩
    have hwhole : IsWhole (wholeBalance (fin q)) :=
      JsNumber.max_cases IsWhole (isWhole_ofInt 0) (isWhole_floor _) hnumbers
    have hdouble : (wholeBalance (fin q)).isDouble = true :=
      JsNumber.max_cases (fun a => a.isDouble = true) (by decide +kernel) hfloorDouble hnumbers
    rw [zero_eq_fin] at hpositive
    obtain ⟨x, hx, hbelow, habove⟩ := eq_fin_of_between hpositive hmost
    obtain ⟨B, rfl⟩ := hwhole x hx
    have hBpos : 0 ≤ B := by exact_mod_cast hbelow
    have hBmost : B ≤ (2 ^ 52 * 1000 : ℕ) := by exact_mod_cast habove
    have hnat : ((B.toNat : ℕ) : ℚ) = (B : ℚ) := by
      rw [← Int.cast_natCast, Int.toNat_of_nonneg hBpos]
    refine ⟨B.toNat, by rw [hx, hnat], by rwa [hnat, ← hx], by omega, fun a ha hadouble hpos => ?_⟩
    rw [hnat, ← hx, ← ha.le_floor_iff hadouble hb]
    constructor
    · intro h
      exact JsNumber.max_cases (fun m => a ≤ m → a ≤ (fin q).floor)
        (fun hz => absurd hpos (not_lt_of_le hz)) (fun hf => hf) hnumbers h
    · intro h
      exact le_trans h (le_max_right (ofInt_ne_nan 0) (ofRat_ne_nan _))

def IsLargestPayout (balance : JsNumber) (n : ℕ) : Prop :=
  (n = 0 ∨ payoutCost (ofInt n) ≤ balance) ∧ ∀ m : ℕ, payoutCost (ofInt m) ≤ balance → m ≤ n

theorem IsLargestPayout.le {n m : ℕ} (hn : IsLargestPayout e n) (hm : IsLargestPayout b m)
    (h : e ≤ b) : n ≤ m := by
  rcases hn.1 with rfl | hfits
  · exact Nat.zero_le m
  · exact hm.2 n (le_trans hfits h)

theorem payoutCost_pos (n : ℕ) : (0 : JsNumber) < payoutCost (ofInt n) := by
  have hfixed : (0 : JsNumber) < ofInt 2500 := by
    rw [zero_eq_fin, @ofInt_eq_fin 2500 (by decide), fin_lt_fin]
    norm_num
  exact lt_of_lt_of_le hfixed (payoutCost_ge n)

theorem isDouble_payoutCost (n : ℕ) : (payoutCost (ofInt n)).isDouble = true := isDouble_add _ _

theorem maxLightningPayoutSats_spec (hb : b.isDouble = true) (hmax : b ≤ maxBalance) :
    ∃ n : ℕ, n ≤ 2 ^ 52 ∧ maxLightningPayoutSats b = ofInt n ∧
      SearchReturns (wholeBalance b) 0 (upperEnd (wholeBalance b)) (ofInt n) ∧
      IsLargestPayout b n := by
  obtain ⟨B, hB, hdouble, hmost, hfits⟩ := wholeBalance_spec hb hmax
  obtain ⟨H, hH, hHmost, hHabove⟩ := upperEnd_eq hmost
  have hcost (n : ℕ) : payoutCost (ofInt n) ≤ fin (B : ℚ) ↔ payoutCost (ofInt n) ≤ b :=
    hfits _ (isWhole_payoutCost n) (isDouble_payoutCost n) (payoutCost_pos n)
  have hhi : ∀ n : ℕ, payoutCost (ofInt n) ≤ fin (B : ℚ) → n ≤ H := by
    intro n hn
    by_contra hover
    exact not_lt_of_le hn (payoutCost_above hdouble hmost (by omega))
  have hfuel : H - 0 < 2 ^ 64 := by omega
  obtain ⟨hreturns, hsearch⟩ := searchReturns_bisect (fin (B : ℚ)) (Nat.zero_le H) hHmost hfuel
  obtain ⟨-, hle, hfound, hlast⟩ := bisect_spec
    (fun m n hmn hn => le_trans (payoutCost_mono hmn) hn) (Nat.zero_le H) hfuel hhi
  refine ⟨_, hle.trans hHmost, ?_, ?_, ?_, ?_⟩
  · show searchPayoutSats (wholeBalance b) 64 0 (upperEnd (wholeBalance b)) = _
    rw [hB, hH]
    exact hsearch
  · rw [hB, hH]
    exact hreturns
  · exact hfound.imp id (hcost _).mp
  · exact fun m hm => hlast m ((hcost m).mpr hm)

theorem wholeBalance_wholeBalance (hb : b.isDouble = true) (hmax : b ≤ maxBalance) :
    wholeBalance (wholeBalance b) = wholeBalance b := by
  obtain ⟨B, hB, hdouble, -, -⟩ := wholeBalance_spec hb hmax
  have hfloor : (fin (B : ℚ)).floor = fin (B : ℚ) := by
    rw [floor, ← Int.cast_natCast, Int.floor_intCast, Int.cast_natCast]
    exact isDouble_fin.mp hdouble
  rw [hB, wholeBalance, hfloor, max_eq_right]
  rw [zero_eq_fin]
  exact fin_le_fin.mpr (Nat.cast_nonneg B)

example : payoutCost 2 ≤ 5000 ∧ 5000 < payoutCost 3 := by decide +kernel

/-- What an expected amount has to be for anything of it to be paid out: a sat with the fee for it,
or a bare sat where nothing is held back. -/
def leastPayable : PayoutKind → JsNumber
  | .lightning => payoutCost 1
  | .onchain | .ecash => 1000

theorem covers_inKind {kind : PayoutKind} (hkind : kind = .onchain ∨ kind = .ecash)
    (he : e.isDouble = true) (hle : e ≤ b) (hmax : b ≤ maxBalance) :
    balanceCoversPayout b e kind = true ↔ 1000 ≤ e := by
  obtain ⟨E, hE, hdouble, hmost, hfits⟩ := wholeBalance_spec he (le_trans hle hmax)
  have hthousand : (1000 : JsNumber) ≤ fin (E : ℚ) ↔ 1000 ≤ e :=
    hfits 1000 (isWhole_ofInt 1000) (by decide +kernel) (by decide +kernel)
  have hgrow : upperEnd (wholeBalance e) ≤ upperEnd (wholeBalance b) :=
    upperEnd_mono (max_mono (le_refl (ofInt_ne_nan 0)) (floor_mono hle))
  have hcovers : balanceCoversPayout b e kind = true ↔
      ¬ wholeBalance e ≤ 0 ∧ 0 < upperEnd (wholeBalance e) := by
    show (if wholeBalance e ≤ 0 then false else if kind = .onchain ∨ kind = .ecash then
      decide (0 < upperEnd (wholeBalance e)) &&
        decide (upperEnd (wholeBalance e) ≤ upperEnd (wholeBalance b)) else _) = true ↔ _
    rw [if_pos hkind]
    split_ifs with hnone
    · exact ⟨fun h => absurd h (by decide), fun h => absurd hnone h.1⟩
    · rw [Bool.and_eq_true, decide_eq_true_eq, decide_eq_true_eq]
      exact ⟨fun h => ⟨hnone, h.1⟩, fun h => ⟨h.2, hgrow⟩⟩
  rw [hcovers, ← hthousand, hE]
  constructor
  · rintro ⟨-, hsats⟩
    by_contra hshort
    -- less than a sat has no whole part
    have hbelow : fin (E : ℚ) ≤ fin (999 : ℚ) := by
      rw [thousand_eq_fin, fin_le_fin, not_le] at hshort
      have hnat : E < 1000 := by exact_mod_cast hshort
      exact fin_le_fin.mpr (by exact_mod_cast (by omega : E ≤ 999))
    have hzero : upperEnd (fin (999 : ℚ)) ≤ 0 := by decide +kernel
    exact not_lt_of_le (le_trans (upperEnd_mono hbelow) hzero) hsats
  · intro hsat
    have hone : (0 : JsNumber) < upperEnd 1000 := by decide +kernel
    exact ⟨fun hnone => absurd (le_trans hsat hnone) (by decide +kernel),
      lt_of_lt_of_le hone (upperEnd_mono hsat)⟩

theorem covers_lightning (he : e.isDouble = true) (hle : e ≤ b) (hmax : b ≤ maxBalance)
    (hb : b.isDouble = true) :
    balanceCoversPayout b e .lightning = true ↔ payoutCost 1 ≤ e := by
  obtain ⟨n, hnmost, hn, -, hlargest⟩ := maxLightningPayoutSats_spec he (le_trans hle hmax)
  obtain ⟨m, hmmost, hm, -, hlargest'⟩ := maxLightningPayoutSats_spec hb hmax
  have hnm : n ≤ m := hlargest.le hlargest' hle
  have hidem : maxLightningPayoutSats (wholeBalance e) = ofInt n := by
    rw [← hn]
    show searchPayoutSats (wholeBalance (wholeBalance e)) 64 0
      (upperEnd (wholeBalance (wholeBalance e))) = _
    rw [wholeBalance_wholeBalance he (le_trans hle hmax)]
    rfl
  have hidem' : maxLightningPayoutSats (wholeBalance b) = ofInt m := by
    rw [← hm]
    show searchPayoutSats (wholeBalance (wholeBalance b)) 64 0
      (upperEnd (wholeBalance (wholeBalance b))) = _
    rw [wholeBalance_wholeBalance hb hmax]
    rfl
  have hpositive : (0 : JsNumber) < ofInt n ↔ 1 ≤ n := by
    rw [zero_eq_fin, ofInt_natCast (by unfold maxExact; omega), fin_lt_fin]
    exact_mod_cast Nat.lt_iff_add_one_le
  have hsat : payoutCost 1 ≤ e ↔ 1 ≤ n := by
    constructor
    · exact fun h => hlargest.2 1 h
    · intro hone
      rcases hlargest.1 with hzero | hfits
      · omega
      · exact le_trans (payoutCost_mono hone) hfits
  have hcovers : balanceCoversPayout b e .lightning = true ↔
      ¬ wholeBalance e ≤ 0 ∧ 0 < ofInt n := by
    show (if wholeBalance e ≤ 0 then false else
      decide (0 < maxLightningPayoutSats (wholeBalance e)) &&
        decide (maxLightningPayoutSats (wholeBalance e)
          ≤ maxLightningPayoutSats (wholeBalance b))) = true ↔ _
    rw [hidem, hidem']
    split_ifs with hnone
    · exact ⟨fun h => absurd h (by decide), fun h => absurd hnone h.1⟩
    · rw [Bool.and_eq_true, decide_eq_true_eq, decide_eq_true_eq]
      exact ⟨fun h => ⟨hnone, h.1⟩, fun h => ⟨h.2, ofInt_mono (by omega)⟩⟩
  rw [hcovers, hpositive, hsat]
  constructor
  · exact fun h => h.2
  · intro hone
    refine ⟨fun hnone => ?_, hone⟩
    -- an amount that pays out something is positive
    obtain ⟨E, hE, -, -, hfits⟩ := wholeBalance_spec he (le_trans hle hmax)
    have hcost := (hfits _ (isWhole_payoutCost 1) (isDouble_payoutCost 1) (payoutCost_pos 1)).mpr
      (hsat.mpr hone)
    rw [hE] at hnone
    exact not_lt_of_le (le_trans hcost hnone) (payoutCost_pos 1)

/-- What the search returns is the largest amount that fits; a larger balance is never worth less;
and a balance covers an expected amount at most as large just when anything of that is paid out. -/
theorem max_payout_optimal {b : JsNumber} (hb : b.isDouble = true) (hmax : b ≤ maxBalance) :
    (∃ n : ℕ, maxLightningPayoutSats b = ofInt n ∧
      SearchReturns (wholeBalance b) 0 (upperEnd (wholeBalance b)) (ofInt n) ∧
      IsLargestPayout b n) ∧
    ∀ e : JsNumber, e.isDouble = true → e ≤ b →
      maxLightningPayoutSats e ≤ maxLightningPayoutSats b ∧
      ∀ kind, balanceCoversPayout b e kind = true ↔ leastPayable kind ≤ e := by
  obtain ⟨m, -, hm, hreturns, hlargest⟩ := maxLightningPayoutSats_spec hb hmax
  refine ⟨⟨m, hm, hreturns, hlargest⟩, fun e he hle => ⟨?_, fun kind => ?_⟩⟩
  · obtain ⟨n, -, hn, -, hlargest'⟩ := maxLightningPayoutSats_spec he (le_trans hle hmax)
    rw [hn, hm]
    exact ofInt_mono (by exact_mod_cast hlargest'.le hlargest hle)
  · cases kind with
    | lightning => exact covers_lightning he hle hmax hb
    | onchain => exact covers_inKind (Or.inl rfl) he hle hmax
    | ecash => exact covers_inKind (Or.inr rfl) he hle hmax

/-- A balance of 5000 msats, an expected amount of 4000. -/
theorem max_payout_optimal_small :
    (maxLightningPayoutSats 5000 = 2 ∧ maxLightningPayoutSats 4000 = 1) ∧
      maxLightningPayoutSats 4000 ≤ maxLightningPayoutSats 5000 ∧
      (balanceCoversPayout 5000 4000 .lightning = true ↔ leastPayable .lightning ≤ 4000) := by
  have hcovers := (max_payout_optimal (b := 5000) (by decide +kernel) (by decide +kernel)).2 4000
    (by decide +kernel) (by decide +kernel)
  exact ⟨by decide +kernel, hcovers.1, hcovers.2 .lightning⟩

/-! ### Where it fails -/

def searchRound (balance : JsNumber) (ends : JsNumber × JsNumber) : JsNumber × JsNumber :=
  if payoutCost (nextPayout ends.1 ends.2) ≤ balance then (nextPayout ends.1 ends.2, ends.2)
  else (ends.1, nextPayout ends.1 ends.2 - 1)

def searchRounds (balance : JsNumber) :
    (rounds : ℕ) → JsNumber × JsNumber → Option (JsNumber × JsNumber)
  | 0, ends => some ends
  | rounds + 1, ends =>
    if ends.1 < ends.2 then searchRounds balance rounds (searchRound balance ends) else none

variable {balance lo hi sats : JsNumber}

theorem SearchReturns.round (hlt : lo < hi) (h : SearchReturns balance lo hi sats) :
    SearchReturns balance (searchRound balance (lo, hi)).1
      (searchRound balance (lo, hi)).2 sats := by
  cases h with
  | done hend => exact absurd hlt hend
  | up _ hfits hrest =>
    rw [searchRound, if_pos hfits]
    exact hrest
  | down _ hfits hrest =>
    rw [searchRound, if_neg hfits]
    exact hrest

theorem SearchReturns.rounds {balance sats : JsNumber} {rounds : ℕ}
    {ends ends' : JsNumber × JsNumber}
    (hrounds : searchRounds balance rounds ends = some ends')
    (h : SearchReturns balance ends.1 ends.2 sats) :
    SearchReturns balance ends'.1 ends'.2 sats := by
  induction rounds generalizing ends with
  | zero =>
    cases hrounds
    exact h
  | succ rounds ih =>
    rw [searchRounds] at hrounds
    split_ifs at hrounds with hlt
    exact ih hrounds (h.round hlt)

theorem SearchReturns.not_of_fixed (hlt : lo < hi)
    (hfixed : searchRound balance (lo, hi) = (lo, hi)) : ¬ SearchReturns balance lo hi sats := by
  intro h
  induction h with
  | done hend => exact hend hlt
  | @up lo hi sats _ hfits _ ih =>
    rw [searchRound, if_pos hfits, Prod.mk.injEq] at hfixed
    have hstill : nextPayout lo hi = lo := hfixed.1
    rw [hstill] at ih
    refine ih hlt ?_
    rw [searchRound, hstill, if_pos (hstill ▸ hfits)]
  | @down lo hi sats _ hfits _ ih =>
    rw [searchRound, if_neg hfits, Prod.mk.injEq] at hfixed
    have hstill : nextPayout lo hi - 1 = hi := hfixed.2
    rw [hstill] at ih
    refine ih hlt ?_
    rw [searchRound, if_neg hfits, hstill]

/-- A sat is not paid out of a balance of five, as nothing is left of it after the fee; and with a
little over `2 ^ 52` sats the search reaches two neighbours and never leaves them. -/
theorem max_payout_fails :
    ((1000 : JsNumber) ≤ 5000 ∧ balanceCoversPayout 5000 1000 .lightning = false) ∧
      ¬ ∃ sats, SearchReturns (wholeBalance (.ofInt 4526117625507350980)) 0
        (upperEnd (wholeBalance (.ofInt 4526117625507350980))) sats := by
  refine ⟨by decide +kernel, fun ⟨sats, hreturns⟩ => ?_⟩
  have hrounds : searchRounds (wholeBalance (.ofInt 4526117625507350980)) 54
      (0, upperEnd (wholeBalance (.ofInt 4526117625507350980))) =
        some (.ofInt (2 ^ 52), .ofInt (2 ^ 52 + 1)) := by decide +kernel
  refine SearchReturns.not_of_fixed ?_ ?_ (hreturns.rounds hrounds)
  · decide +kernel
  · decide +kernel

end Optimum

end ChamaEscrow
