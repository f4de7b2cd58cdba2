import ChamaEscrow.Js.Quotient

/-!
# Costs

Sums and multiples of amounts that are not negative.  A cost keeps the order of the amounts it is
computed from, however it is rounded; amounts that are whole stay whole; and an amount of some size
is always felt.

* `lt_ofRat`: what is above a number by a step of its own grid is rounded above it.
* `IsWhole`: a number is whole when it is an integer or not finite.
-/

namespace ChamaEscrow.Js

namespace JsNumber

/-! ### Order -/

theorem ofInt_mono {m n : ℤ} (h : m ≤ n) : ofInt m ≤ ofInt n := ofRat_mono (by exact_mod_cast h)

variable {a b : JsNumber}

theorem ceil_mono (h : a ≤ b) : a.ceil ≤ b.ceil := by
  have hfin (p q : ℚ) (hpq : p ≤ q) : ceil (fin p) ≤ ceil (fin q) :=
    ofRat_mono (by exact_mod_cast Int.ceil_le_ceil hpq)
  exact mono_of_fin hfin rfl rfl h

theorem mul_fin_mono {c : ℚ} (hc : 0 < c) (h : a ≤ b) : a * fin c ≤ b * fin c := by
  have hfin (p q : ℚ) (hpq : p ≤ q) : fin p * fin c ≤ fin q * fin c :=
    ofRat_mono (mul_le_mul_of_nonneg_right hpq hc.le)
  have hpos : posInf * fin c = posInf := by
    show signedInf c = posInf
    rw [signedInf, if_pos hc]
  have hneg : negInf * fin c = negInf := by
    show signedInf (-c) = negInf
    rw [signedInf, if_neg (by linarith), if_pos (by linarith)]
  exact mono_of_fin (f := fun a => a * fin c) hfin hpos hneg h

/-- Sums of amounts keep their order. -/
theorem add_mono {a b c d : JsNumber} (hab : a ≤ b) (hcd : c ≤ d) (ha : 0 ≤ a) (hc : 0 ≤ c) :
    a + c ≤ b + d := by
  have hb := le_trans ha hab
  have hd := le_trans hc hcd
  rw [zero_eq_fin] at ha hc hb hd
  have hsum {x y : JsNumber} (hx : fin 0 ≤ x) (hy : fin 0 ≤ y) : x + y ≠ nan := by
    cases x with
    | fin p =>
      cases y with
      | fin q => exact ofRat_ne_nan _
      | nan => cases hy
      | posInf => exact (by decide : posInf ≠ nan)
      | negInf => cases hy
    | nan => cases hx
    | posInf =>
      cases y with
      | fin q => exact (by decide : posInf ≠ nan)
      | nan => cases hy
      | posInf => exact (by decide : posInf ≠ nan)
      | negInf => cases hy
    | negInf => cases hx
  cases b with
  | nan => cases hb
  | negInf => cases hb
  | posInf =>
    have hinf : posInf + d = posInf := by
      cases d with
      | nan => cases hd
      | negInf => cases hd
      | _ => rfl
    rw [hinf]
    exact le_posInf (hsum ha hc)
  | fin q =>
    obtain ⟨p, rfl, -, hpq⟩ := eq_fin_of_between ha hab
    cases d with
    | nan => cases hd
    | negInf => cases hd
    | posInf => exact le_posInf (hsum ha hc)
    | fin s =>
      obtain ⟨r, rfl, -, hrs⟩ := eq_fin_of_between hc hcd
      exact ofRat_mono (add_le_add hpq hrs)

theorem add_nonneg (ha : 0 ≤ a) (hb : 0 ≤ b) : 0 ≤ a + b := by
  have h := add_mono ha hb (le_refl (ofInt_ne_nan 0)) (le_refl (ofInt_ne_nan 0))
  rwa [show (0 : JsNumber) + 0 = 0 from @add_ofNat 0 0 (by decide)] at h

theorem mul_fin_nonneg {a : JsNumber} {c : ℚ} (hc : 0 < c) (ha : 0 ≤ a) : 0 ≤ a * fin c := by
  have h := mul_fin_mono hc ha
  have hzero : (0 : JsNumber) * fin c = 0 := by
    rw [zero_eq_fin]
    show ofRat (0 * c) = fin 0
    rw [zero_mul]
    rfl
  rwa [hzero] at h

theorem floor_nonneg {a : JsNumber} (ha : 0 ≤ a) : 0 ≤ a.floor := by
  have h := floor_mono ha
  rwa [zero_eq_fin, show (fin 0).floor = fin 0 from floor_intCast (n := 0) (by decide),
    ← zero_eq_fin] at h

theorem not_ofInt_le_zero {n : ℤ} (hn : 0 < n) : ¬ ofInt n ≤ 0 := by
  intro h
  have hone : (1 : JsNumber) ≤ 0 := le_trans (ofInt_mono hn) h
  rw [zero_eq_fin, one_eq_fin, fin_le_fin] at hone
  norm_num at hone

/-- What is above a number by a step of its own grid is rounded above it. -/
theorem lt_ofRat {q y : ℚ} (hq : 0 ≤ q) (h : q + 2 ^ lastPlace y < y) : fin q < ofRat y := by
  have hpos := two_zpow_pos (lastPlace y)
  -- the value of the grid just below `y`
  have hbelow : ⌊y / 2 ^ lastPlace y⌋ * (2 : ℚ) ^ lastPlace y ≤ y :=
    (le_div_iff₀ hpos).mp (Int.floor_le _)
  have habove : y < (⌊y / 2 ^ lastPlace y⌋ + 1) * (2 : ℚ) ^ lastPlace y :=
    (div_lt_iff₀ hpos).mp (Int.lt_floor_add_one _)
  have hround := le_roundPlace hbelow
  have hlt : q < roundPlace y := by
    rw [add_mul, one_mul] at habove
    linarith
  rw [ofRat_eq_clip, clip]
  split_ifs with hover hunder
  · rfl
  · have hneg : -(2 : ℚ) ^ (1024 : ℕ) < 0 := neg_lt_zero.mpr (by positivity)
    exact absurd (hq.trans_lt hlt) (not_lt.mpr (hunder.trans hneg.le))
  · exact fin_lt_fin.mpr hlt

theorem lastPlace_le {y : ℚ} {k : ℤ} (hy : 0 < y) (hk : -1074 ≤ k) (h : y < 2 ^ (k + 53)) :
    lastPlace y ≤ k := by
  have hlog : log2 y < k + 53 :=
    (zpow_lt_zpow_iff_right₀ (by norm_num : (1 : ℚ) < 2)).mp ((log2_spec hy).1.trans_lt h)
  rw [lastPlace, abs_of_pos hy]
  omega

theorem roundHalfEven_le_half (q : ℚ) : (roundHalfEven q : ℚ) ≤ q + 1 / 2 := by
  have hfloor := Int.floor_le q
  unfold roundHalfEven
  dsimp only
  split_ifs <;> push_cast <;> linarith

theorem roundPlace_le_half (q : ℚ) : roundPlace q ≤ q + 2 ^ lastPlace q / 2 := by
  have hpos := two_zpow_pos (lastPlace q)
  have hround := mul_le_mul_of_nonneg_right (roundHalfEven_le_half (q / 2 ^ lastPlace q)) hpos.le
  have hsplit : (q / 2 ^ lastPlace q + 1 / 2) * 2 ^ lastPlace q = q + 2 ^ lastPlace q / 2 := by
    field_simp
  rw [hsplit] at hround
  exact hround

/-- Whole msats are divided into whole sats without an error. -/
theorem floor_thousandth {n : ℕ} (h : n ≤ maxExact) :
    ((fin (n : ℚ)).divBy 1000).floor = fin ((n / 1000 : ℕ) : ℚ) := by
  obtain ⟨k, hk, hlow, hhigh⟩ : ∃ k : ℕ, n / 1000 = k ∧ k * 1000 ≤ n ∧ n + 1 ≤ (k + 1) * 1000 := by
    refine ⟨n / 1000, rfl, Nat.div_mul_le_self n 1000, ?_⟩
    omega
  have hexact : k + 1 ≤ maxExact := by
    unfold maxExact at h ⊢
    omega
  have hlowRat : (k : ℚ) * 1000 ≤ n := by exact_mod_cast hlow
  have hhighRat : (n : ℚ) + 1 ≤ (k + 1) * 1000 := by exact_mod_cast hhigh
  have hsize : (n : ℚ) ≤ 2 ^ 53 := by exact_mod_cast h
  rw [hk]
  rcases Nat.eq_zero_or_pos n with rfl | hpos
  · have hzero : k = 0 := by omega
    subst hzero
    decide +kernel
  have hquotient : (0 : ℚ) < n / 1000 := by
    have : (0 : ℚ) < n := by exact_mod_cast hpos
    positivity
  -- the grid there is finer than two thousandths
  have hplace : lastPlace ((n : ℚ) / 1000) ≤ -9 := by
    refine lastPlace_le hquotient (by norm_num) ?_
    rw [div_lt_iff₀ (by norm_num)]
    norm_num at hsize ⊢
    linarith
  have hstep : (2 : ℚ) ^ lastPlace ((n : ℚ) / 1000) ≤ 2 ^ (-9 : ℤ) :=
    zpow_le_zpow_right₀ (by norm_num) hplace
  have hbelow : roundPlace ((n : ℚ) / 1000) < k + 1 := by
    have hround := roundPlace_le_half ((n : ℚ) / 1000)
    norm_num at hstep
    linarith
  have hmost : ofRat ((n : ℚ) / 1000) ≤ fin ((k + 1 : ℕ) : ℚ) := by
    refine ofRat_le_fin (isDouble_natCast hexact) ?_
    push_cast
    linarith
  have hleast : fin (k : ℚ) ≤ ofRat ((n : ℚ) / 1000) := by
    refine fin_le_ofRat (isDouble_natCast (by omega)) ?_
    linarith
  obtain ⟨v, hv, hkv, -⟩ := eq_fin_of_between hleast hmost
  have hvround : v = roundPlace ((n : ℚ) / 1000) := clip_eq_fin (ofRat_eq_clip _ ▸ hv)
  have hfloor : ⌊v⌋ = (k : ℤ) := by
    rw [Int.floor_eq_iff, hvround]
    rw [hvround] at hkv
    exact ⟨by exact_mod_cast hkv, by exact_mod_cast hbelow⟩
  show (ofRat ((n : ℚ) / 1000)).floor = _
  rw [hv, floor, hfloor, Int.cast_natCast]
  exact ofInt_natCast (by omega)

/-! ### Whole numbers -/

def IsWhole (a : JsNumber) : Prop := ∀ q, a = fin q → ∃ n : ℤ, q = n

theorem isWhole_ofInt (n : ℤ) : IsWhole (ofInt n) := by
  intro q hq
  obtain ⟨m, hm⟩ := roundPlace_intCast n
  have hround : q = roundPlace n := clip_eq_fin (ofRat_eq_clip n ▸ hq)
  exact ⟨m, hround.trans hm⟩

theorem IsWhole.add (ha : IsWhole a) (hb : IsWhole b) : IsWhole (a + b) := by
  intro q hq
  cases a with
  | fin x =>
    cases b with
    | fin y =>
      obtain ⟨m, rfl⟩ := ha x rfl
      obtain ⟨n, rfl⟩ := hb y rfl
      have hsum : ofInt (m + n) = fin q := by
        rw [← hq, fin_add_fin, ofInt, Int.cast_add]
      exact isWhole_ofInt (m + n) q hsum
    | _ => cases hq
  | _ => cases b <;> cases hq

theorem IsWhole.mul_fin {a : JsNumber} (ha : IsWhole a) {c : ℤ} (hc : 0 < c) :
    IsWhole (a * fin c) := by
  intro q hq
  have hpos : (0 : ℚ) < c := by exact_mod_cast hc
  cases a with
  | fin x =>
    obtain ⟨m, rfl⟩ := ha x rfl
    have hproduct : ofInt (m * c) = fin q := by
      rw [← hq, ofInt, Int.cast_mul]
      rfl
    exact isWhole_ofInt (m * c) q hproduct
  | nan => cases hq
  | posInf =>
    change signedInf (c : ℚ) = fin q at hq
    rw [signedInf, if_pos hpos] at hq
    cases hq
  | negInf =>
    change signedInf (-(c : ℚ)) = fin q at hq
    rw [signedInf, if_neg (by linarith), if_pos (by linarith)] at hq
    cases hq

theorem isWhole_ceil (a : JsNumber) : IsWhole a.ceil := by
  intro q hq
  cases a with
  | fin x => exact isWhole_ofInt ⌈x⌉ q hq
  | _ => cases hq

theorem isWhole_floor (a : JsNumber) : IsWhole a.floor := by
  intro q hq
  cases a with
  | fin x => exact isWhole_ofInt ⌊x⌋ q hq
  | _ => cases hq

theorem IsWhole.le_floor_iff {a : JsNumber} (ha : IsWhole a) (hdouble : a.isDouble = true) {q : ℚ}
    (hq : (fin q).isDouble = true) : a ≤ (fin q).floor ↔ a ≤ fin q := by
  constructor
  · intro h
    exact le_trans h (ofRat_le_fin hq (Int.floor_le q))
  · intro h
    cases a with
    | fin x =>
      obtain ⟨n, rfl⟩ := ha x rfl
      have hn : n ≤ ⌊q⌋ := Int.le_floor.mpr (fin_le_fin.mp h)
      exact fin_le_ofRat hdouble (by exact_mod_cast hn)
    | nan => cases h
    | posInf => cases h
    | negInf => exact negInf_le (ofRat_ne_nan _)

end JsNumber

end ChamaEscrow.Js
