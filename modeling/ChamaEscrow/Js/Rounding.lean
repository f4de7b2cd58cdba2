import ChamaEscrow.Js.Number
import Mathlib.Tactic.Linarith

/-!
# Rounding is monotone

Rounding to binary64 keeps the order of exact results.  `roundHalfEven` is monotone and keeps
integers; a positive value is rounded on the grid of its own binade, whose ends lie on the grids of
both neighbours, so that rounding never crosses them; and a negative value is rounded like its
absolute value.

`ofRat_mono` is the result, `lt_add_mono` the form in which a deadline with more grace is a later
deadline.
-/

namespace ChamaEscrow.Js.JsNumber

/-! ### Integers -/

theorem roundHalfEven_intCast (n : ℤ) : roundHalfEven n = n := by
  unfold roundHalfEven
  simp

theorem floor_le_roundHalfEven (q : ℚ) : ⌊q⌋ ≤ roundHalfEven q := by
  unfold roundHalfEven
  dsimp only
  split_ifs <;> omega

theorem roundHalfEven_le (q : ℚ) : roundHalfEven q ≤ ⌊q⌋ + 1 := by
  unfold roundHalfEven
  dsimp only
  split_ifs <;> omega

theorem roundHalfEven_mono {p q : ℚ} (h : p ≤ q) : roundHalfEven p ≤ roundHalfEven q := by
  rcases (Int.floor_mono h).lt_or_eq with hlt | heq
  · calc roundHalfEven p ≤ ⌊p⌋ + 1 := roundHalfEven_le p
      _ ≤ ⌊q⌋ := hlt
      _ ≤ roundHalfEven q := floor_le_roundHalfEven q
  · unfold roundHalfEven
    dsimp only
    rw [heq]
    split_ifs <;> first | omega | (exfalso; linarith)

theorem roundHalfEven_neg (q : ℚ) : roundHalfEven (-q) = -roundHalfEven q := by
  by_cases hq : (⌊q⌋ : ℚ) = q
  · rw [← hq, ← Int.cast_neg, roundHalfEven_intCast, roundHalfEven_intCast]
  · have hlt : (⌊q⌋ : ℚ) < q := lt_of_le_of_ne (Int.floor_le q) hq
    have hfloor : ⌊-q⌋ = -⌊q⌋ - 1 := by
      rw [Int.floor_eq_iff]
      have := Int.lt_floor_add_one q
      push_cast
      constructor <;> linarith
    unfold roundHalfEven
    dsimp only
    rw [hfloor]
    push_cast
    split_ifs <;> first | omega | (exfalso; linarith)

/-! ### Binades -/

variable {q : ℚ}

theorem log2_spec (hq : 0 < q) : (2 : ℚ) ^ log2 q ≤ q ∧ q < (2 : ℚ) ^ (log2 q + 1) := by
  have hnum : 0 < q.num := Rat.num_pos.mpr hq
  have hcast : (q.num : ℚ) = q.num.natAbs := by
    rw [Nat.cast_natAbs, abs_of_pos hnum]
  have hdiv : q = q.num.natAbs / q.den := by rw [← hcast, Rat.num_div_den]
  have hden : (0 : ℚ) < q.den := by exact_mod_cast q.den_pos
  have hnumLow : (2 : ℚ) ^ (Nat.log2 q.num.natAbs : ℤ) ≤ q.num.natAbs := by
    exact_mod_cast Nat.log2_self_le (by omega)
  have hnumHigh : (q.num.natAbs : ℚ) < 2 ^ ((Nat.log2 q.num.natAbs : ℤ) + 1) := by
    exact_mod_cast Nat.lt_log2_self
  have hdenLow : (2 : ℚ) ^ (Nat.log2 q.den : ℤ) ≤ q.den := by
    exact_mod_cast Nat.log2_self_le q.den_nz
  have hdenHigh : (q.den : ℚ) < 2 ^ ((Nat.log2 q.den : ℤ) + 1) := by
    exact_mod_cast Nat.lt_log2_self
  have hlow : (2 : ℚ) ^ ((Nat.log2 q.num.natAbs : ℤ) - Nat.log2 q.den - 1) ≤ q := by
    refine le_of_le_of_eq ?_ hdiv.symm
    rw [sub_sub, zpow_sub₀ (by norm_num)]
    exact div_le_div₀ (Nat.cast_nonneg _) hnumLow hden hdenHigh.le
  have hhigh : q < (2 : ℚ) ^ ((Nat.log2 q.num.natAbs : ℤ) - Nat.log2 q.den + 1) := by
    refine hdiv.trans_lt ?_
    rw [sub_add_eq_add_sub, zpow_sub₀ (by norm_num)]
    exact div_lt_div₀ hnumHigh hdenLow (zpow_pos (by norm_num) _).le (zpow_pos (by norm_num) _)
  unfold log2
  dsimp only
  split_ifs with hle
  · exact ⟨hle, hhigh⟩
  · rw [sub_add_cancel]
    exact ⟨hlow, not_le.mp hle⟩

theorem log2_mono {p q : ℚ} (hp : 0 < p) (h : p ≤ q) : log2 p ≤ log2 q := by
  by_contra hlt
  have hpow : (2 : ℚ) ^ (log2 q + 1) ≤ (2 : ℚ) ^ log2 p :=
    zpow_le_zpow_right₀ (by norm_num) (by omega)
  have := (log2_spec (hp.trans_le h)).2
  have := (log2_spec hp).1
  linarith

def roundPlace (q : ℚ) : ℚ := (roundHalfEven (q / 2 ^ lastPlace q) : ℚ) * 2 ^ lastPlace q

theorem two_zpow_pos (k : ℤ) : (0 : ℚ) < 2 ^ k := zpow_pos (by norm_num) k

variable {n : ℤ}

/-- A value of the grid is not crossed from below. -/
theorem le_roundPlace (h : n * (2 : ℚ) ^ lastPlace q ≤ q) :
    n * (2 : ℚ) ^ lastPlace q ≤ roundPlace q := by
  have hn : (n : ℚ) ≤ q / 2 ^ lastPlace q := (le_div_iff₀ (two_zpow_pos _)).mpr h
  have hround : n ≤ roundHalfEven (q / 2 ^ lastPlace q) := by
    rw [← roundHalfEven_intCast n]
    exact roundHalfEven_mono hn
  exact mul_le_mul_of_nonneg_right (by exact_mod_cast hround) (two_zpow_pos _).le

/-- A value of the grid is not crossed from above. -/
theorem roundPlace_le (h : q ≤ n * (2 : ℚ) ^ lastPlace q) :
    roundPlace q ≤ n * (2 : ℚ) ^ lastPlace q := by
  have hn : q / 2 ^ lastPlace q ≤ n := (div_le_iff₀ (two_zpow_pos _)).mpr h
  have hround : roundHalfEven (q / 2 ^ lastPlace q) ≤ n := by
    rw [← roundHalfEven_intCast n]
    exact roundHalfEven_mono hn
  exact mul_le_mul_of_nonneg_right (by exact_mod_cast hround) (two_zpow_pos _).le

theorem exists_grid {k l : ℤ} (h : l ≤ k) : ∃ n : ℤ, (2 : ℚ) ^ k = n * 2 ^ l := by
  refine ⟨2 ^ (k - l).toNat, ?_⟩
  push_cast
  rw [← zpow_natCast, Int.toNat_of_nonneg (by omega), ← zpow_add₀ (by norm_num)]
  congr 1
  omega

theorem roundPlace_mono_of_pos {p q : ℚ} (hp : 0 < p) (h : p ≤ q) :
    roundPlace p ≤ roundPlace q := by
  have hq := hp.trans_le h
  have hlog := log2_mono hp h
  by_cases hplace : lastPlace p = lastPlace q
  · unfold roundPlace
    rw [hplace]
    refine mul_le_mul_of_nonneg_right ?_ (two_zpow_pos _).le
    exact_mod_cast roundHalfEven_mono (div_le_div_of_nonneg_right h (two_zpow_pos _).le)
  · -- The lower end of the binade of `q` separates the two.
    have hp' : lastPlace p = (log2 p - 52) ⊔ (-1074) := by rw [lastPlace, abs_of_pos hp]
    have hq' : lastPlace q = (log2 q - 52) ⊔ (-1074) := by rw [lastPlace, abs_of_pos hq]
    obtain ⟨n, hn⟩ := exists_grid (k := log2 q) (l := lastPlace p) (by omega)
    obtain ⟨m, hm⟩ := exists_grid (k := log2 q) (l := lastPlace q) (by omega)
    have hbelow : p ≤ 2 ^ log2 q :=
      (log2_spec hp).2.le.trans (zpow_le_zpow_right₀ (by norm_num) (by omega))
    calc roundPlace p ≤ n * 2 ^ lastPlace p := roundPlace_le (hn ▸ hbelow)
      _ = 2 ^ log2 q := hn.symm
      _ = m * 2 ^ lastPlace q := hm
      _ ≤ roundPlace q := le_roundPlace (hm ▸ (log2_spec hq).1)

theorem roundPlace_neg (q : ℚ) : roundPlace (-q) = -roundPlace q := by
  have hplace : lastPlace (-q) = lastPlace q := by rw [lastPlace, abs_neg, lastPlace]
  unfold roundPlace
  rw [hplace, neg_div, roundHalfEven_neg]
  push_cast
  ring

theorem roundPlace_nonneg (h : 0 ≤ q) : 0 ≤ roundPlace q := by
  have := le_roundPlace (q := q) (n := 0) (by simpa using h)
  simpa using this

theorem roundPlace_mono {p q : ℚ} (h : p ≤ q) : roundPlace p ≤ roundPlace q := by
  have nonpos {r : ℚ} (hr : r ≤ 0) : roundPlace r ≤ 0 := by
    have := roundPlace_nonneg (neg_nonneg.mpr hr)
    rw [roundPlace_neg] at this
    linarith
  rcases lt_trichotomy 0 p with hp | rfl | hp
  · exact roundPlace_mono_of_pos hp h
  · exact (nonpos le_rfl).trans (roundPlace_nonneg h)
  · rcases le_or_gt 0 q with hq | hq
    · exact (nonpos hp.le).trans (roundPlace_nonneg hq)
    · have := roundPlace_mono_of_pos (neg_pos.mpr hq) (neg_le_neg h)
      rw [roundPlace_neg, roundPlace_neg] at this
      linarith

/-! ### Exact results -/

theorem not_lt_nan (a : JsNumber) : ¬ a < nan := by
  change ¬ lt a nan = true
  cases a <;> simp [lt]

/-- A positive integer up to `2^53` is a value of its own grid. -/
theorem roundPlace_natCast {n : ℕ} (hpos : 0 < n) (h : n ≤ maxExact) :
    roundPlace (n : ℚ) = n := by
  have hn : (0 : ℚ) < n := by exact_mod_cast hpos
  have hplace : lastPlace (n : ℚ) = (log2 n - 52) ⊔ (-1074) := by rw [lastPlace, abs_of_pos hn]
  have hlog : log2 (n : ℚ) ≤ 53 := by
    by_contra hgt
    have hbig : (2 : ℚ) ^ (54 : ℤ) ≤ 2 ^ log2 (n : ℚ) :=
      zpow_le_zpow_right₀ (by norm_num) (by omega)
    have hle : (n : ℚ) ≤ 2 ^ (53 : ℤ) := by exact_mod_cast h
    have hlt : (2 : ℚ) ^ (53 : ℤ) < 2 ^ (54 : ℤ) := by norm_num
    have := (log2_spec hn).1
    linarith
  obtain ⟨m, hm⟩ : ∃ m : ℤ, (n : ℚ) = m * 2 ^ lastPlace (n : ℚ) := by
    by_cases hfine : lastPlace (n : ℚ) ≤ 0
    · obtain ⟨m, hm⟩ := exists_grid hfine
      refine ⟨n * m, ?_⟩
      push_cast
      rw [mul_assoc, ← hm, zpow_zero, mul_one]
    · -- Only `2^53` itself lies in a binade of even integers.
      have hlog' : log2 (n : ℚ) = 53 := by omega
      have hn53 : (n : ℚ) = 2 ^ (53 : ℤ) := by
        have hlow := (log2_spec hn).1
        have hle : (n : ℚ) ≤ 2 ^ (53 : ℕ) := by exact_mod_cast h
        rw [hlog'] at hlow
        exact le_antisymm (by exact_mod_cast hle) hlow
      rw [hn53]
      exact exists_grid (by rw [← hn53]; omega)
  refine le_antisymm ?_ ?_
  · exact (roundPlace_le hm.le).trans hm.ge
  · exact hm.le.trans (le_roundPlace hm.ge)

theorem roundPlace_of_exact (h : q.den = 1 ∧ q.num.natAbs ≤ maxExact) : roundPlace q = q := by
  have hq : q = q.num := (Rat.coe_int_num_of_den_eq_one h.1).symm
  rcases lt_trichotomy 0 q.num with hpos | hzero | hneg
  · have hcast : q = (q.num.natAbs : ℕ) := by
      rw [Nat.cast_natAbs, abs_of_pos hpos]
      exact hq
    rw [hcast]
    exact roundPlace_natCast (by omega) (by simpa using h.2)
  · rw [hq, ← hzero]
    simp [roundPlace, roundHalfEven]
  · have hcast : q = -(q.num.natAbs : ℕ) := by
      rw [Nat.cast_natAbs, abs_of_neg hneg]
      push_cast
      rw [neg_neg]
      exact hq
    have hround := roundPlace_natCast (n := q.num.natAbs) (by omega) h.2
    calc roundPlace q = roundPlace (-(q.num.natAbs : ℕ)) := congrArg _ hcast
      _ = -(q.num.natAbs : ℕ) := by rw [roundPlace_neg, hround]
      _ = q := hcast.symm

/-- Overflow to the infinities. -/
def clip (v : ℚ) : JsNumber :=
  if (2 : ℚ) ^ (1024 : ℕ) ≤ v then posInf else if v ≤ -(2 : ℚ) ^ (1024 : ℕ) then negInf else fin v

theorem clip_mono {v w : ℚ} (h : v ≤ w) : clip v ≤ clip w := by
  unfold clip
  generalize (2 : ℚ) ^ (1024 : ℕ) = bound
  split_ifs <;> first | rfl | (exfalso; linarith) | exact fin_le_fin.mpr h

theorem ofRat_eq_clip (q : ℚ) : ofRat q = clip (roundPlace q) := by
  by_cases h : q.den = 1 ∧ q.num.natAbs ≤ maxExact
  · have hbound : |q| ≤ 2 ^ (53 : ℕ) := by
      rw [← Rat.coe_int_num_of_den_eq_one h.1, ← Int.cast_abs, Int.abs_eq_natAbs]
      exact_mod_cast h.2
    have hlarge : (2 : ℚ) ^ (53 : ℕ) < 2 ^ (1024 : ℕ) :=
      pow_lt_pow_right₀ (by norm_num) (by norm_num)
    obtain ⟨hlow, hhigh⟩ := abs_le.mp hbound
    rw [ofRat, if_pos h, roundPlace_of_exact h, clip, if_neg (hhigh.trans_lt hlarge).not_ge,
      if_neg ((neg_lt_neg hlarge).trans_le hlow).not_ge]
  · rw [ofRat, if_neg h]
    rfl

/-- Rounding keeps the order of exact results. -/
theorem ofRat_mono {p q : ℚ} (h : p ≤ q) : ofRat p ≤ ofRat q := by
  rw [ofRat_eq_clip, ofRat_eq_clip]
  exact clip_mono (roundPlace_mono h)

/-! ### Values -/

/-- Whether a number is a binary64 value: it is its own rounding. -/
def isDouble : JsNumber → Bool
  | fin q => ofRat q = fin q
  | _ => true

theorem roundPlace_of_grid (h : q = n * (2 : ℚ) ^ lastPlace q) : roundPlace q = q :=
  le_antisymm ((roundPlace_le h.le).trans h.ge) (h.le.trans (le_roundPlace h.ge))

theorem grid_of_le {n k l : ℤ} (hkl : l ≤ k) (h : q = n * (2 : ℚ) ^ k) :
    ∃ m : ℤ, q = m * (2 : ℚ) ^ l := by
  obtain ⟨m, hm⟩ := exists_grid hkl
  refine ⟨n * m, ?_⟩
  rw [h, hm]
  push_cast
  ring

theorem roundPlace_roundPlace_of_pos (hq : 0 < q) : roundPlace (roundPlace q) = roundPlace q := by
  rcases (roundPlace_nonneg hq.le).eq_or_lt with hzero | hpos
  · rw [← hzero]
    simp [roundPlace, roundHalfEven]
  set v := roundPlace q with hv
  have hplace : lastPlace q = (log2 q - 52) ⊔ (-1074) := by rw [lastPlace, abs_of_pos hq]
  have hplace' : lastPlace v = (log2 v - 52) ⊔ (-1074) := by rw [lastPlace, abs_of_pos hpos]
  obtain ⟨m, hm⟩ : ∃ m : ℤ, v = m * 2 ^ lastPlace v := by
    rcases le_or_gt (lastPlace v) (lastPlace q) with hle | hgt
    · exact grid_of_le hle hv
    · -- Rounding reaches a coarser grid at the lower end of its first binade alone.
      set k := (log2 q + 1) ⊔ lastPlace q with hk
      obtain ⟨n, hn⟩ := exists_grid (k := k) (l := lastPlace q) (by omega)
      have hbelow : q ≤ 2 ^ k :=
        (log2_spec hq).2.le.trans (zpow_le_zpow_right₀ (by norm_num) (by omega))
      have hupper : v ≤ 2 ^ k := (roundPlace_le (hn ▸ hbelow)).trans hn.ge
      have hlower : (2 : ℚ) ^ k ≤ v :=
        (zpow_le_zpow_right₀ (by norm_num) (by omega)).trans (log2_spec hpos).1
      have hlog : log2 v ≤ k := (zpow_le_zpow_iff_right₀ (by norm_num : (1 : ℚ) < 2)).mp
        ((log2_spec hpos).1.trans hupper)
      obtain ⟨m, hm⟩ := exists_grid (k := k) (l := lastPlace v) (by omega)
      exact ⟨m, (le_antisymm hupper hlower).trans hm⟩
  exact roundPlace_of_grid hm

theorem roundPlace_roundPlace (q : ℚ) : roundPlace (roundPlace q) = roundPlace q := by
  rcases lt_trichotomy 0 q with hpos | rfl | hneg
  · exact roundPlace_roundPlace_of_pos hpos
  · simp [roundPlace, roundHalfEven]
  · have h := roundPlace_roundPlace_of_pos (neg_pos.mpr hneg)
    rwa [roundPlace_neg, roundPlace_neg, neg_inj] at h

theorem clip_eq_fin {v w : ℚ} (h : clip v = fin w) : w = v := by
  unfold clip at h
  split_ifs at h
  exact (fin.inj h).symm

/-- What rounding yields is a binary64 value. -/
theorem isDouble_ofRat (q : ℚ) : (ofRat q).isDouble = true := by
  cases h : ofRat q with
  | fin v =>
    have hv : v = roundPlace q := clip_eq_fin (ofRat_eq_clip q ▸ h)
    have hround : ofRat v = fin v := by
      rw [ofRat_eq_clip, hv, roundPlace_roundPlace, ← ofRat_eq_clip, h, hv]
    simpa [isDouble] using hround
  | _ => rfl

theorem isDouble_add (a b : JsNumber) : (a + b).isDouble = true := by
  change (add a b).isDouble = true
  cases a <;> cases b <;> first | rfl | exact isDouble_ofRat _

theorem isDouble_fin : (fin q).isDouble = true ↔ ofRat q = fin q := by
  rw [isDouble, decide_eq_true_eq]

/-! ### Whole numbers -/

theorem roundPlace_intCast (n : ℤ) : ∃ m : ℤ, roundPlace n = m := by
  rcases le_or_gt 0 (lastPlace (n : ℚ)) with hcoarse | hfine
  · refine ⟨roundHalfEven (n / 2 ^ lastPlace (n : ℚ)) * 2 ^ (lastPlace (n : ℚ)).toNat, ?_⟩
    unfold roundPlace
    push_cast
    rw [← zpow_natCast, Int.toNat_of_nonneg hcoarse]
  · refine ⟨n, ?_⟩
    obtain ⟨m, hm⟩ := grid_of_le (q := n) (n := n) hfine.le (by rw [zpow_zero, mul_one])
    exact roundPlace_of_grid hm

theorem isInteger_ofInt (h : (ofInt n).isFinite = true) : (ofInt n).isInteger = true := by
  cases hv : ofInt n with
  | fin v =>
    obtain ⟨m, hm⟩ := roundPlace_intCast n
    have hround : v = roundPlace n := clip_eq_fin (ofRat_eq_clip n ▸ hv)
    rw [hround, hm, isInteger, decide_eq_true_eq]
    exact Rat.den_intCast m
  | nan => exact absurd hv (ofInt_ne_nan n)
  | posInf => rw [hv] at h; cases h
  | negInf => rw [hv] at h; cases h

theorem zero_eq_fin : (0 : JsNumber) = fin 0 := ofInt_eq_fin (n := 0) (by decide)

/-- Rounding down a positive value stays between zero and the value. -/
theorem floor_bounds {a : JsNumber} (ha : a.isDouble = true) (hpos : 0 < a) :
    0 ≤ a.floor ∧ a.floor ≤ a := by
  cases a with
  | fin q =>
    rw [zero_eq_fin, fin_lt_fin] at hpos
    have hzero : ofRat 0 = fin 0 := ofInt_eq_fin (n := 0) (by decide)
    constructor
    · rw [zero_eq_fin, ← hzero]
      exact ofRat_mono (by exact_mod_cast Int.floor_nonneg.mpr hpos.le)
    · calc ofRat ⌊q⌋ ≤ ofRat q := ofRat_mono (Int.floor_le q)
        _ = fin q := isDouble_fin.mp ha
  | nan => exact absurd hpos (not_lt_nan 0)
  | posInf => exact ⟨rfl, rfl⟩
  | negInf => cases hpos

/-! ### Deadlines -/

variable {a b : JsNumber}

theorem le_of_not_lt (ha : a ≠ nan) (hb : b ≠ nan) (h : ¬ a < b) : b ≤ a := by
  change ¬ lt a b = true at h
  change le b a = true
  cases a <;> cases b <;> simp_all [lt, le]

theorem not_lt_of_le (h : a ≤ b) : ¬ b < a := by
  change le a b = true at h
  change ¬ lt b a = true
  cases a <;> cases b <;> simp_all [lt, le]

theorem le_of_lt (h : a < b) : a ≤ b := by
  change lt a b = true at h
  change le a b = true
  cases a <;> cases b <;> simp_all [lt, le, Rat.le_of_lt]

theorem le_total_of_ne_nan (ha : a ≠ nan) (hb : b ≠ nan) : a ≤ b ∨ b ≤ a := by
  by_cases h : a < b
  · exact Or.inl (le_of_lt h)
  · exact Or.inr (le_of_not_lt ha hb h)

theorem nan_add (a : JsNumber) : nan + a = nan := by
  change add nan a = nan
  cases a <;> rfl

theorem lt_of_lt_of_le {a b c : JsNumber} (hab : a < b) (hbc : b ≤ c) : a < c := by
  change lt a b = true at hab
  change le b c = true at hbc
  change lt a c = true
  cases a <;> cases b <;> cases c <;> simp_all [lt, le]
  linarith

theorem lt_of_le_of_lt {a b c : JsNumber} (hab : a ≤ b) (hbc : b < c) : a < c := by
  change le a b = true at hab
  change lt b c = true at hbc
  change lt a c = true
  cases a <;> cases b <;> cases c <;> simp_all [lt, le]
  linarith

theorem le_trans {a b c : JsNumber} (hab : a ≤ b) (hbc : b ≤ c) : a ≤ c := by
  change le a b = true at hab
  change le b c = true at hbc
  change le a c = true
  cases a <;> cases b <;> cases c <;> simp_all [le]
  linarith

theorem max_le {a b c : JsNumber} (ha : a ≤ c) (hb : b ≤ c) : max a b ≤ c := by
  have hnan : ¬ (a = nan ∨ b = nan) := by
    rintro (rfl | rfl)
    · exact Bool.noConfusion ha
    · exact Bool.noConfusion hb
  unfold max
  rw [if_neg hnan]
  split_ifs
  · exact hb
  · exact ha

/-- What comes before a deadline comes before the same deadline with more grace. -/
theorem lt_add_mono {m n : ℕ} (hm : n ≤ maxExact) (hmn : m ≤ n)
    (h : a < b + ofInt m) : a < b + ofInt n := by
  rw [ofInt_natCast (hmn.trans hm)] at h
  rw [ofInt_natCast hm]
  cases b with
  | fin q =>
    refine lt_of_lt_of_le h (ofRat_mono ?_)
    have : (m : ℚ) ≤ n := by exact_mod_cast hmn
    linarith
  | nan => exact absurd h (not_lt_nan a)
  | posInf => exact h
  | negInf => exact h

/-! ### Integers -/

theorem isSafeInteger_iff {a : JsNumber} :
    a.isSafeInteger = true ↔ ∃ z : ℤ, z.natAbs < maxExact ∧ a = fin z := by
  constructor
  · intro h
    cases a with
    | fin q =>
      simp only [isSafeInteger, Bool.and_eq_true, decide_eq_true_eq] at h
      exact ⟨q.num, h.2, congrArg fin (Rat.coe_int_num_of_den_eq_one h.1).symm⟩
    | nan => cases h
    | posInf => cases h
    | negInf => cases h
  · rintro ⟨z, hz, rfl⟩
    simp [isSafeInteger, hz]

variable {x y : ℤ}

theorem intCast_lt : fin x < fin y ↔ x < y := by
  rw [fin_lt_fin, Int.cast_lt]

theorem intCast_le : fin x ≤ fin y ↔ x ≤ y := by
  rw [fin_le_fin, Int.cast_le]

theorem intCast_inj : fin x = fin y ↔ x = y := by
  rw [JsNumber.fin.injEq, Int.cast_inj]

theorem add_intCast (h : (x + y).natAbs ≤ maxExact) : fin x + fin y = fin ((x + y : ℤ) : ℚ) := by
  change ofRat (x + y) = _
  rw [← Int.cast_add]
  exact ofInt_eq_fin h

theorem sub_intCast (h : (x - y).natAbs ≤ maxExact) : fin x - fin y = fin ((x - y : ℤ) : ℚ) := by
  change ofRat (x + -y) = _
  rw [← sub_eq_add_neg, ← Int.cast_sub]
  exact ofInt_eq_fin h

theorem mul_intCast (h : (x * y).natAbs ≤ maxExact) : fin x * fin y = fin ((x * y : ℤ) : ℚ) := by
  change ofRat (x * y) = _
  rw [← Int.cast_mul]
  exact ofInt_eq_fin h

/-- A difference of integers that is at most a bound was so before its rounding. -/
theorem sub_le_of_not_lt {m : ℕ} (hm : m < maxExact)
    (h : ¬ ofInt m < fin x - fin y) : x - y ≤ m := by
  by_contra hlarge
  have hexact : ofInt (m + 1 : ℕ) = fin ((m + 1 : ℕ) : ℚ) := ofInt_natCast (by omega)
  have hle : fin ((m + 1 : ℕ) : ℚ) ≤ fin x - fin y := by
    rw [← hexact]
    change ofRat _ ≤ ofRat (x + -y)
    refine ofRat_mono ?_
    have : ((m + 1 : ℕ) : ℤ) ≤ x - y := by push_cast; omega
    have hcast : (((m + 1 : ℕ) : ℤ) : ℚ) ≤ ((x - y : ℤ) : ℚ) := by exact_mod_cast this
    push_cast at hcast ⊢
    linarith
  refine h (lt_of_lt_of_le ?_ hle)
  rw [ofInt_natCast hm.le, fin_lt_fin]
  push_cast
  linarith

/-- A number from `2^53` on is no safe integer. -/
theorem not_safe_of_le {a : JsNumber} (h : fin (maxExact : ℕ) ≤ a) : a.isSafeInteger = false := by
  by_contra hsafe
  obtain ⟨z, hz, rfl⟩ := isSafeInteger_iff.mp (Bool.not_eq_false _ ▸ hsafe)
  have : fin ((maxExact : ℤ) : ℚ) ≤ fin z := by rwa [Int.cast_natCast]
  rw [intCast_le] at this
  omega

theorem le_add_of_nonneg {a : JsNumber} {y : ℤ} (hy : 0 ≤ y) (h : fin (maxExact : ℕ) ≤ a) :
    fin (maxExact : ℕ) ≤ a + fin y := by
  have hexact : fin (maxExact : ℕ) = ofRat (maxExact : ℕ) := (ofInt_natCast le_rfl).symm
  cases a with
  | fin q =>
    rw [fin_le_fin] at h
    rw [hexact]
    change _ ≤ ofRat (q + y)
    refine ofRat_mono ?_
    have : (0 : ℚ) ≤ y := by exact_mod_cast hy
    linarith
  | nan => cases h
  | posInf => rfl
  | negInf => cases h

theorem maxExact_le_add (h : (maxExact : ℤ) ≤ x + y) : fin (maxExact : ℕ) ≤ fin x + fin y := by
  have hexact : fin (maxExact : ℕ) = ofRat (maxExact : ℕ) := (ofInt_natCast le_rfl).symm
  rw [hexact]
  change _ ≤ ofRat (x + y)
  refine ofRat_mono ?_
  have hcast : ((maxExact : ℤ) : ℚ) ≤ ((x + y : ℤ) : ℚ) := by exact_mod_cast h
  push_cast at hcast ⊢
  exact hcast

theorem add_of_safe (hx : -(maxExact : ℤ) < x) (hy : 0 ≤ y)
    (h : (fin x + fin y).isSafeInteger = true) : (x + y).natAbs < maxExact := by
  by_contra hlarge
  have hle : (maxExact : ℤ) ≤ x + y := by omega
  rw [not_safe_of_le (maxExact_le_add hle)] at h
  cases h

end ChamaEscrow.Js.JsNumber
