import ChamaEscrow.Js.Rounding

/-!
# Operations that keep the order

The operations that the clocks of the engine are made of, each with the fact that it keeps the order
of its arguments.  `NaN` compares with nothing, so `a ≤ b` says of both sides that they are numbers.

* `add_le_add_left`, `divBy_mono`, `floor_mono`, `min_mono`, `max_mono`: the operations.
* `halfLife`: half of a time span, rounded down, as the engine computes it.  `halfLife_intCast` is
  its value on whole spans, `halfLife_mono` bounds it on all others.
-/

namespace ChamaEscrow.Js

namespace JsNumber

/-! ### Order -/

theorem le_refl {a : JsNumber} (ha : a ≠ nan) : a ≤ a := by
  cases a with
  | fin q => exact fin_le_fin.mpr le_rfl
  | nan => exact absurd rfl ha
  | posInf => rfl
  | negInf => rfl

variable {a b : JsNumber}

theorem ne_nan_of_le (h : a ≤ b) : a ≠ nan ∧ b ≠ nan := by
  constructor
  · rintro rfl
    cases h
  · rintro rfl
    cases a <;> cases h

variable {p q : ℚ}

theorem eq_fin_of_between {a : JsNumber} (hp : fin p ≤ a) (hq : a ≤ fin q) :
    ∃ v, a = fin v ∧ p ≤ v ∧ v ≤ q := by
  cases a with
  | fin v => exact ⟨v, rfl, fin_le_fin.mp hp, fin_le_fin.mp hq⟩
  | nan => cases hq
  | posInf => cases hq
  | negInf => cases hp

theorem le_posInf {a : JsNumber} (ha : a ≠ nan) : a ≤ posInf := by
  cases a with
  | nan => exact absurd rfl ha
  | _ => rfl

theorem negInf_le {a : JsNumber} (ha : a ≠ nan) : negInf ≤ a := by
  cases a with
  | nan => exact absurd rfl ha
  | _ => rfl

theorem eq_of_le_of_le (h : a ≤ b) (h' : b ≤ a) : a = b := by
  change le a b = true at h
  change le b a = true at h'
  cases a <;> cases b <;> simp_all [le]
  linarith

/-- A function on numbers that keeps the infinities keeps the order of all numbers when it keeps the
order of the finite ones. -/
theorem mono_of_fin {f : JsNumber → JsNumber} (hfin : ∀ p q, p ≤ q → f (fin p) ≤ f (fin q))
    (hpos : f posInf = posInf) (hneg : f negInf = negInf) (h : a ≤ b) : f a ≤ f b := by
  have hnumber (q : ℚ) : f (fin q) ≠ nan := (ne_nan_of_le (hfin q q le_rfl)).1
  have hf {c : JsNumber} (hc : c ≠ nan) : f c ≠ nan := by
    cases c with
    | fin q => exact hnumber q
    | nan => exact absurd rfl hc
    | posInf => rw [hpos]; decide
    | negInf => rw [hneg]; decide
  obtain ⟨ha, hb⟩ := ne_nan_of_le h
  cases a with
  | nan => exact absurd rfl ha
  | negInf =>
    rw [hneg]
    exact negInf_le (hf hb)
  | posInf =>
    rw [eq_of_le_of_le (le_posInf hb) h]
    exact le_refl (hf (by decide))
  | fin p =>
    cases b with
    | fin q => exact hfin p q (fin_le_fin.mp h)
    | nan => exact absurd rfl hb
    | posInf =>
      rw [hpos]
      exact le_posInf (hf ha)
    | negInf => cases h

/-! ### The least and the greatest -/

theorem min_eq_left (h : a ≤ b) : min a b = a := by
  rw [min, if_neg (not_or.mpr (ne_nan_of_le h)), if_pos h]

theorem min_eq_right (h : b ≤ a) : min a b = b := by
  obtain ⟨hb, ha⟩ := ne_nan_of_le h
  rw [min, if_neg (not_or.mpr ⟨ha, hb⟩)]
  split_ifs with hle
  · exact eq_of_le_of_le hle h
  · rfl

theorem max_eq_left (h : b ≤ a) : max a b = a := by
  obtain ⟨hb, ha⟩ := ne_nan_of_le h
  rw [max, if_neg (not_or.mpr ⟨ha, hb⟩)]
  split_ifs with hle
  · exact eq_of_le_of_le h hle
  · rfl

theorem max_eq_right (h : a ≤ b) : max a b = b := by
  rw [max, if_neg (not_or.mpr (ne_nan_of_le h)), if_pos h]

theorem min_le_left (ha : a ≠ nan) (hb : b ≠ nan) : min a b ≤ a := by
  rcases le_total_of_ne_nan ha hb with h | h
  · rw [min_eq_left h]
    exact le_refl ha
  · rwa [min_eq_right h]

theorem min_le_right (ha : a ≠ nan) (hb : b ≠ nan) : min a b ≤ b := by
  rcases le_total_of_ne_nan ha hb with h | h
  · rwa [min_eq_left h]
  · rw [min_eq_right h]
    exact le_refl hb

theorem le_min {a b c : JsNumber} (ha : c ≤ a) (hb : c ≤ b) : c ≤ min a b := by
  rcases le_total_of_ne_nan (ne_nan_of_le ha).2 (ne_nan_of_le hb).2 with h | h
  · rwa [min_eq_left h]
  · rwa [min_eq_right h]

theorem min_mono {a b c d : JsNumber} (hac : a ≤ c) (hbd : b ≤ d) : min a b ≤ min c d :=
  le_min (le_trans (min_le_left (ne_nan_of_le hac).1 (ne_nan_of_le hbd).1) hac)
    (le_trans (min_le_right (ne_nan_of_le hac).1 (ne_nan_of_le hbd).1) hbd)

theorem le_max_left (ha : a ≠ nan) (hb : b ≠ nan) : a ≤ max a b := by
  rcases le_total_of_ne_nan ha hb with h | h
  · rwa [max_eq_right h]
  · rw [max_eq_left h]
    exact le_refl ha

theorem le_max_right (ha : a ≠ nan) (hb : b ≠ nan) : b ≤ max a b := by
  rcases le_total_of_ne_nan ha hb with h | h
  · rw [max_eq_right h]
    exact le_refl hb
  · rwa [max_eq_left h]

theorem max_mono {a b c d : JsNumber} (hac : a ≤ c) (hbd : b ≤ d) : max a b ≤ max c d :=
  max_le (le_trans hac (le_max_left (ne_nan_of_le hac).2 (ne_nan_of_le hbd).2))
    (le_trans hbd (le_max_right (ne_nan_of_le hac).2 (ne_nan_of_le hbd).2))

theorem max_cases (P : JsNumber → Prop) (ha : P a) (hb : P b)
    (hnan : a ≠ nan ∧ b ≠ nan) : P (max a b) := by
  rcases le_total_of_ne_nan hnan.1 hnan.2 with h | h
  · rwa [max_eq_right h]
  · rwa [max_eq_left h]

/-! ### Arithmetic -/

theorem fin_add_fin (p q : ℚ) : fin p + fin q = ofRat (p + q) := rfl

theorem ofRat_le_fin (hq : (fin q).isDouble = true) (h : p ≤ q) : ofRat p ≤ fin q :=
  isDouble_fin.mp hq ▸ ofRat_mono h

theorem fin_le_ofRat (hp : (fin p).isDouble = true) (h : p ≤ q) : fin p ≤ ofRat q :=
  isDouble_fin.mp hp ▸ ofRat_mono h

theorem add_le_add_left {a : JsNumber} (ha : a ≠ nan) (h : p ≤ q) : a + fin p ≤ a + fin q := by
  cases a with
  | fin v => exact ofRat_mono (add_le_add_right h v)
  | nan => exact absurd rfl ha
  | posInf => rfl
  | negInf => rfl

/-- Adding nothing negative leads nowhere before the start. -/
theorem le_add_fin {a : JsNumber} {p : ℚ} (ha : a ≠ nan) (hdouble : a.isDouble = true)
    (hp : 0 ≤ p) : a ≤ a + fin p := by
  cases a with
  | fin v => exact fin_le_ofRat hdouble (le_add_of_nonneg_right hp)
  | nan => exact absurd rfl ha
  | posInf => rfl
  | negInf => rfl

theorem divBy_mono {d : ℕ} (h : a ≤ b) : a.divBy d ≤ b.divBy d :=
  mono_of_fin (f := fun a => a.divBy d)
    (fun _ _ h => ofRat_mono (div_le_div_of_nonneg_right h (Nat.cast_nonneg d))) rfl rfl h

theorem floor_mono (h : a ≤ b) : a.floor ≤ b.floor :=
  mono_of_fin (f := floor) (fun _ _ h => ofRat_mono (by exact_mod_cast Int.floor_le_floor h))
    rfl rfl h

theorem isDouble_divBy {d : ℕ} {a : JsNumber} : (a.divBy d).isDouble = true := by
  cases a <;> first | rfl | exact isDouble_ofRat _

theorem floor_le {a : JsNumber} (ha : a ≠ nan) (hdouble : a.isDouble = true) : a.floor ≤ a := by
  cases a with
  | fin q => exact ofRat_le_fin hdouble (Int.floor_le q)
  | nan => exact absurd rfl ha
  | posInf => rfl
  | negInf => rfl

theorem floor_intCast {n : ℤ} (h : n.natAbs ≤ maxExact) : (fin n).floor = fin n := by
  rw [floor, Int.floor_intCast]
  exact ofInt_eq_fin h

/-! ### Half of a span -/

def halfLife (span : JsNumber) : JsNumber := max 0 (span.divBy 2).floor

theorem halfLife_mono (h : a ≤ b) : halfLife a ≤ halfLife b :=
  max_mono (le_refl (ofInt_ne_nan 0)) (floor_mono (divBy_mono h))

theorem ofRat_of_grid {n k : ℤ} (hn : n.natAbs < maxExact) (hlow : -1074 ≤ k) (hhigh : k ≤ 970) :
    ofRat (n * 2 ^ k) = fin (n * 2 ^ k) := by
  rcases eq_or_ne n 0 with rfl | hne
  · rw [Int.cast_zero, zero_mul]
    exact ofInt_eq_fin (n := 0) (by decide)
  set q : ℚ := n * 2 ^ k with hq
  have hpos : 0 < |q| := by
    rw [abs_pos, hq]
    exact mul_ne_zero (Int.cast_ne_zero.mpr hne) (two_zpow_pos k).ne'
  have habs : |q| < 2 ^ (53 + k) := by
    rw [hq, abs_mul, abs_of_pos (two_zpow_pos k), zpow_add₀ (by norm_num)]
    refine mul_lt_mul_of_pos_right ?_ (two_zpow_pos k)
    rw [← Int.cast_abs, Int.abs_eq_natAbs]
    exact_mod_cast hn
  have hplace : lastPlace q ≤ k := by
    have hlog := (zpow_lt_zpow_iff_right₀ (by norm_num : (1 : ℚ) < 2)).mp
      ((log2_spec hpos).1.trans_lt habs)
    rw [lastPlace]
    omega
  obtain ⟨m, hm⟩ := grid_of_le hplace hq
  have hbound : (2 : ℚ) ^ (53 + k) ≤ 2 ^ (1024 : ℕ) := by
    rw [← zpow_natCast]
    exact zpow_le_zpow_right₀ (by norm_num) (by omega)
  obtain ⟨habove, hbelow⟩ := abs_lt.mp (habs.trans_le hbound)
  rw [ofRat_eq_clip, roundPlace_of_grid hm, clip, if_neg hbelow.not_ge, if_neg habove.not_ge]

theorem ofRat_half {n : ℤ} (h : n.natAbs < maxExact) : ofRat (n / 2) = fin (n / 2) := by
  have hgrid := ofRat_of_grid (k := -1) h (by norm_num) (by norm_num)
  rwa [zpow_neg_one, ← div_eq_mul_inv] at hgrid

theorem halfLife_intCast {n : ℤ} (h : n.natAbs < maxExact) :
    halfLife (fin n) = fin (Max.max 0 (n / 2) : ℤ) := by
  have hdiv : (fin (n : ℚ)).divBy 2 = fin (n / 2 : ℚ) := ofRat_half h
  have hfloor : ⌊(n / 2 : ℚ)⌋ = n / 2 := by
    rw [Int.floor_eq_iff]
    have hle : ((n / 2 : ℤ) : ℚ) * 2 ≤ n := by exact_mod_cast Int.ediv_mul_le n (by norm_num)
    have hlt : (n : ℚ) < (n / 2 : ℤ) * 2 + 2 := by
      exact_mod_cast (by omega : n < n / 2 * 2 + 2)
    constructor <;> linarith
  have hexact : ofRat ((n / 2 : ℤ) : ℚ) = fin ((n / 2 : ℤ) : ℚ) := ofInt_eq_fin (by omega)
  rw [halfLife, hdiv, floor, hfloor, hexact, zero_eq_fin]
  rcases le_total 0 (n / 2) with hpos | hneg
  · rw [max_eq_right (fin_le_fin.mpr (by exact_mod_cast hpos)), Int.max_eq_right hpos]
  · rw [max_eq_left (fin_le_fin.mpr (by exact_mod_cast hneg)), Int.max_eq_left hneg, Int.cast_zero]

/-! ### A window -/

/-- The window `Math.min(cap, half)` of a span, for a cap in whole seconds. -/
def window (cap : ℤ) (span : ℚ) : JsNumber := min (fin cap) (halfLife (ofRat span))

theorem zero_le_halfLife (span : ℚ) : fin 0 ≤ halfLife (ofRat span) := by
  have hnan : ((ofRat span).divBy 2).floor ≠ nan :=
    (ne_nan_of_le (floor_mono (divBy_mono (le_refl (ofRat_ne_nan span))))).1
  rw [← zero_eq_fin]
  exact le_max_left (ofInt_ne_nan 0) hnan

theorem window_bounds {cap : ℤ} (hcap : 0 ≤ cap ∧ cap ≤ 14400) (span : ℚ) :
    ∃ w : ℚ, window cap span = fin w ∧ 0 ≤ w ∧ (span ≤ 3 / 2 → w = 0) ∧ (span < 2 → w ≤ 1) ∧
      (2 ≤ span → w ≤ span - 1) := by
  have hnan : halfLife (ofRat span) ≠ nan := (ne_nan_of_le (zero_le_halfLife span)).2
  have hcapNan : fin (cap : ℚ) ≠ nan := by simp
  obtain ⟨w, hw, hzero, hwcap⟩ := eq_fin_of_between
    (le_min (fin_le_fin.mpr (by exact_mod_cast hcap.1)) (zero_le_halfLife span))
    (min_le_left hcapNan hnan)
  have hbelow {bound : ℚ} {half : ℚ} (hhalf : halfLife (ofRat bound) = fin half)
      (hspan : span ≤ bound) : w ≤ half := by
    have hle := le_trans (min_le_right hcapNan hnan) (halfLife_mono (ofRat_mono hspan))
    rw [hw, hhalf, fin_le_fin] at hle
    exact hle
  have hwhole {n : ℤ} (hn : n.natAbs < maxExact) (hspan : span ≤ n) :
      w ≤ (Max.max 0 (n / 2) : ℤ) :=
    hbelow ((congrArg halfLife (ofInt_eq_fin hn.le)).trans (halfLife_intCast hn)) hspan
  refine ⟨w, hw, hzero, fun hspan => ?_, fun hspan => ?_, fun hspan => ?_⟩
  · have hhalf : halfLife (ofRat (3 / 2)) = fin 0 := by decide +kernel
    exact le_antisymm (hbelow hhalf hspan) hzero
  · simpa using hwhole (n := 2) (by decide) (by exact_mod_cast hspan.le)
  · have hceil := Int.ceil_lt_add_one span
    have htwo : (2 : ℤ) ≤ ⌈span⌉ := by
      have := hspan.trans (Int.le_ceil span)
      exact_mod_cast this
    rcases le_or_gt 14401 span with hlong | hshort
    · have : (cap : ℚ) ≤ 14400 := by exact_mod_cast hcap.2
      linarith
    · have hn : ⌈span⌉.natAbs < maxExact := by
        have : ⌈span⌉ ≤ 14401 := Int.ceil_le.mpr (by exact_mod_cast hshort.le)
        rw [maxExact]
        omega
      have hle := hwhole hn (Int.le_ceil span)
      rw [Int.max_eq_right (by omega)] at hle
      rcases htwo.eq_or_lt with heq | hgt
      · rw [← heq] at hle
        norm_num at hle
        linarith
      · have hhalf : ((⌈span⌉ / 2 : ℤ) : ℚ) ≤ (⌈span⌉ - 2 : ℤ) := by
          exact_mod_cast (by omega : ⌈span⌉ / 2 ≤ ⌈span⌉ - 2)
        push_cast at hhalf
        linarith

theorem window_intCast {cap : ℤ} (hcap : 0 ≤ cap ∧ cap ≤ 14400) (n : ℤ) :
    window cap n = fin (Min.min cap (Max.max 0 (n / 2)) : ℤ) := by
  have hnan : halfLife (ofRat n) ≠ nan := (ne_nan_of_le (zero_le_halfLife n)).2
  have hbound {m : ℤ} (hm : m.natAbs < maxExact) :
      halfLife (ofRat m) = fin (Max.max 0 (m / 2) : ℤ) :=
    (congrArg halfLife (ofInt_eq_fin hm.le)).trans (halfLife_intCast hm)
  have hmin {a b : ℤ} : min (fin a) (fin b) = fin (Min.min a b : ℤ) := by
    rcases le_total a b with hle | hle
    · rw [min_eq_left (intCast_le.mpr hle), Int.min_eq_left hle]
    · rw [min_eq_right (intCast_le.mpr hle), Int.min_eq_right hle]
  unfold window
  rcases lt_or_ge 28800 n with hlong | hn
  · have hhalf := hbound (m := 28800) (by decide)
    have hle : fin (cap : ℚ) ≤ halfLife (ofRat n) := by
      have hmono := halfLife_mono (ofRat_mono (Int.cast_le (R := ℚ).mpr hlong.le))
      rw [hhalf] at hmono
      exact le_trans (intCast_le.mpr (by omega)) hmono
    rw [min_eq_left hle, Int.min_eq_left (by omega)]
  · rcases le_or_gt 0 n with hpos | hneg
    · rw [hbound (by rw [maxExact]; omega), hmin]
    · have hhalf := hbound (m := 0) (by decide)
      have hmono := halfLife_mono (ofRat_mono (Int.cast_le (R := ℚ).mpr hneg.le))
      rw [hhalf] at hmono
      have heq := eq_of_le_of_le hmono (by simpa using zero_le_halfLife n)
      rw [heq, hmin]
      congr 2
      omega

end JsNumber

end ChamaEscrow.Js
