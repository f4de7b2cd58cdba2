import ChamaEscrow.Js.Monotone

/-!
# Floors and ceilings of rounded quotients

A quotient is rounded before `Math.floor` or `Math.ceil` looks at it, so a quotient just below an
integer can end up on it.  A value of the grid between the quotient and the integer keeps the two
apart: rounding is monotone and leaves the values of the grid where they are.
-/

namespace ChamaEscrow.Js.JsNumber

theorem isDouble_grid {m n : ℕ} (hm : m < maxExact) (hn : n ≤ 1074) :
    (fin ((m : ℚ) / 2 ^ n)).isDouble = true := by
  have hgrid := ofRat_of_grid (n := m) (k := -n) (by simpa using hm) (by omega) (by omega)
  rw [zpow_neg, zpow_natCast, ← div_eq_mul_inv, Int.cast_natCast] at hgrid
  exact isDouble_fin.mpr hgrid

theorem isDouble_natCast {n : ℕ} (h : n ≤ maxExact) : (fin (n : ℚ)).isDouble = true :=
  isDouble_fin.mpr (ofInt_natCast h)

variable {k n : ℕ}

theorem floor_ofRat {q : ℚ} (hlow : k ≤ q) (hhigh : q + 1 / 2 ^ n ≤ k + 1)
    (hn : n ≤ 1074) (hgrid : (k + 1) * 2 ^ n ≤ maxExact) : (ofRat q).floor = fin (k : ℚ) := by
  have hpow : 0 < 2 ^ n := Nat.two_pow_pos n
  have hpowQ : (0 : ℚ) < 2 ^ n := by exact_mod_cast hpow
  have hk : k + 1 ≤ (k + 1) * 2 ^ n := Nat.le_mul_of_pos_right _ hpow
  have hedge : ((((k + 1) * 2 ^ n - 1 : ℕ) : ℚ) / 2 ^ n) = k + 1 - 1 / 2 ^ n := by
    rw [Nat.cast_sub (by omega)]
    push_cast
    field_simp
  have hbelow : ofRat q ≤ fin (k + 1 - 1 / 2 ^ n) := by
    rw [← hedge]
    refine ofRat_le_fin (isDouble_grid (by omega) hn) ?_
    rw [hedge]
    linarith
  obtain ⟨v, hv, hkv, hvk⟩ :=
    eq_fin_of_between (fin_le_ofRat (isDouble_natCast (by omega)) hlow) hbelow
  have hfloor : ⌊v⌋ = (k : ℤ) := by
    rw [Int.floor_eq_iff]
    have : (0 : ℚ) < 1 / 2 ^ n := by positivity
    push_cast
    constructor <;> linarith
  rw [hv, floor, hfloor, Int.cast_natCast]
  exact ofInt_natCast (by omega)

theorem lt_ceil_ofRat {q : ℚ} (hlow : k + 1 / 2 ^ n ≤ q) (hn : n ≤ 1074)
    (hgrid : k * 2 ^ n + 1 < maxExact) : fin (k : ℚ) < (ofRat q).ceil := by
  have hpow : 0 < 2 ^ n := Nat.two_pow_pos n
  have hk : k ≤ k * 2 ^ n := Nat.le_mul_of_pos_right _ hpow
  have hedge : ((k * 2 ^ n + 1 : ℕ) : ℚ) / 2 ^ n = k + 1 / 2 ^ n := by
    push_cast
    field_simp
  have habove : fin (k + 1 / 2 ^ n) ≤ ofRat q := by
    rw [← hedge]
    refine fin_le_ofRat (isDouble_grid hgrid hn) ?_
    rwa [hedge]
  cases hq : ofRat q with
  | fin v =>
    rw [hq, fin_le_fin] at habove
    have hceil : k + 1 ≤ ⌈v⌉ := by
      refine Int.lt_ceil.mpr ?_
      have : (0 : ℚ) < 1 / 2 ^ n := by positivity
      push_cast
      linarith
    have hnext : fin ((k + 1 : ℕ) : ℚ) ≤ ofRat ⌈v⌉ := by
      refine fin_le_ofRat (isDouble_natCast (by omega)) ?_
      exact_mod_cast hceil
    refine lt_of_lt_of_le (fin_lt_fin.mpr ?_) hnext
    push_cast
    linarith
  | nan => exact absurd hq (ofRat_ne_nan q)
  | posInf => rfl
  | negInf =>
    rw [hq] at habove
    cases habove

/-- The ceiling of a quotient between an integer and the next, a step of the grid above the
first. -/
theorem ceil_ofRat {q : ℚ} (hlow : k + 1 / 2 ^ n ≤ q) (hhigh : q ≤ k + 1)
    (hn : n ≤ 1074) (hgrid : k * 2 ^ n + 1 < maxExact) :
    (ofRat q).ceil = fin ((k + 1 : ℕ) : ℚ) := by
  have hpow : 0 < 2 ^ n := Nat.two_pow_pos n
  have hk : k ≤ k * 2 ^ n := Nat.le_mul_of_pos_right _ hpow
  have hdouble := isDouble_natCast (n := k + 1) (by omega)
  have hedge : ((k + 1 : ℕ) : ℚ) = k + 1 := by push_cast; rfl
  have hbelow : ofRat q ≤ fin ((k + 1 : ℕ) : ℚ) := ofRat_le_fin hdouble (by rwa [hedge])
  have hpast := lt_ceil_ofRat hlow hn hgrid
  cases hq : ofRat q with
  | fin v =>
    rw [hq, fin_le_fin] at hbelow
    rw [hq] at hpast
    have hceil : ⌈v⌉ ≤ (k + 1 : ℕ) := Int.ceil_le.mpr (by exact_mod_cast hbelow)
    rw [ceil] at hpast ⊢
    rcases hceil.lt_or_eq with hlt | heq
    · have hle : ofRat ⌈v⌉ ≤ fin (k : ℚ) := by
        refine ofRat_le_fin (isDouble_natCast (by omega)) ?_
        have : ⌈v⌉ ≤ (k : ℤ) := by omega
        exact_mod_cast this
      exact absurd hpast (not_lt_of_le hle)
    · rw [heq, Int.cast_natCast]
      exact ofInt_natCast (by omega)
  | nan => exact absurd hq (ofRat_ne_nan q)
  | posInf =>
    rw [hq] at hbelow
    cases hbelow
  | negInf =>
    rw [hq] at hpast
    cases hpast

end ChamaEscrow.Js.JsNumber
