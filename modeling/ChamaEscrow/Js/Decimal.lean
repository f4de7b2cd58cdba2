import ChamaEscrow.Js.Text

/-!
# Reading a number back

`String(a)` writes a number in one of four forms: digits with trailing zeros, digits around a point,
a fraction below one, and scientific notation.  `readDecimal` reads all of them, and gives back the
significand and the exponent that were written.  What was written rounds to the number, because the
search for a short significand ends at the exact expansion at the latest.

`toText_injective` is the result: two positive binary64 values with one text are one value.
-/

namespace ChamaEscrow.Js.JsNumber

/-! ### A reader -/

/-- The exponent after an `e`, zero where there is none. -/
def readExponent : List Char → ℤ
  | '+' :: digits => Nat.ofDigitChars 10 digits 0
  | '-' :: digits => -Nat.ofDigitChars 10 digits 0
  | _ => 0

theorem readExponent_nil : readExponent [] = 0 := rfl

theorem readExponent_signed (e : ℤ) :
    readExponent ((if 0 ≤ e then '+' else '-') :: Nat.toDigits 10 e.natAbs) = e := by
  split_ifs with h
  · rw [readExponent, Nat.ofDigitChars_ten_toDigits]
    omega
  · rw [readExponent, Nat.ofDigitChars_ten_toDigits]
    omega

def readDecimal (text : List Char) : ℚ :=
  let mantissa := text.takeWhile (· ≠ 'e')
  let fraction := (mantissa.dropWhile (· ≠ '.')).tail
  Nat.ofDigitChars 10 (mantissa.takeWhile (· ≠ '.') ++ fraction) 0 *
    10 ^ (readExponent (text.dropWhile (· ≠ 'e')).tail - fraction.length)

theorem ne_of_mem_toDigits {n : ℕ} {c d : Char} (hd : d.isDigit = false)
    (h : c ∈ Nat.toDigits 10 n) : c ≠ d := by
  rintro rfl
  rw [Nat.isDigit_of_mem_toDigits (by norm_num) (by norm_num) h] at hd
  cases hd

theorem split_at {c : Char} {l rest : List Char} (hl : c ∉ l)
    (hrest : rest = [] ∨ ∃ r, rest = c :: r) :
    (l ++ rest).takeWhile (· ≠ c) = l ∧ (l ++ rest).dropWhile (· ≠ c) = rest := by
  have hall : ∀ d ∈ l, decide (d ≠ c) = true := fun d hd => by
    rw [decide_eq_true_eq]
    rintro rfl
    exact hl hd
  rw [List.takeWhile_append_of_pos hall, List.dropWhile_append_of_pos hall]
  rcases hrest with rfl | ⟨r, rfl⟩
  · exact ⟨List.append_nil l, rfl⟩
  · rw [List.takeWhile_cons_of_neg (by simp), List.dropWhile_cons_of_neg (by simp)]
    exact ⟨List.append_nil l, rfl⟩

theorem readDecimal_whole {digits exponent : List Char} (he : 'e' ∉ digits) (hp : '.' ∉ digits)
    (hexponent : exponent = [] ∨ ∃ rest, exponent = 'e' :: rest) :
    readDecimal (digits ++ exponent) =
      Nat.ofDigitChars 10 digits 0 * 10 ^ readExponent exponent.tail := by
  have hpoint := @split_at '.' _ [] hp (Or.inl rfl)
  rw [List.append_nil] at hpoint
  unfold readDecimal
  dsimp only
  rw [(split_at he hexponent).1, (split_at he hexponent).2, hpoint.1, hpoint.2]
  simp

theorem readDecimal_point {digits fraction exponent : List Char} (he : 'e' ∉ digits)
    (hp : '.' ∉ digits) (hf : 'e' ∉ fraction)
    (hexponent : exponent = [] ∨ ∃ rest, exponent = 'e' :: rest) :
    readDecimal (digits ++ '.' :: fraction ++ exponent) =
      Nat.ofDigitChars 10 (digits ++ fraction) 0 *
        10 ^ (readExponent exponent.tail - fraction.length) := by
  have hmantissa : 'e' ∉ digits ++ '.' :: fraction := by simp [he, hf]
  have hpoint := @split_at '.' _ ('.' :: fraction) hp (Or.inr ⟨_, rfl⟩)
  unfold readDecimal
  dsimp only
  rw [(split_at hmantissa hexponent).1, (split_at hmantissa hexponent).2, hpoint.1, hpoint.2,
    List.tail_cons]

theorem ofDigitChars_zeros_append (m : ℕ) (digits : List Char) :
    Nat.ofDigitChars 10 (List.replicate m '0' ++ digits) 0 = Nat.ofDigitChars 10 digits 0 := by
  rw [Nat.ofDigitChars_append, Nat.ofDigitChars_replicate_zero, mul_zero]

theorem ofDigitChars_append_zeros (m : ℕ) (digits : List Char) :
    Nat.ofDigitChars 10 (digits ++ List.replicate m '0') 0 =
      Nat.ofDigitChars 10 digits 0 * 10 ^ m := by
  rw [Nat.ofDigitChars_append, Nat.ofDigitChars_replicate_zero, mul_comm]

theorem readDecimal_decimalText (s : ℕ) (x : ℤ) :
    readDecimal (decimalText s x).toList = s * 10 ^ x := by
  have he : 'e' ∉ Nat.toDigits 10 s := fun h => ne_of_mem_toDigits (by decide) h rfl
  have hp : '.' ∉ Nat.toDigits 10 s := fun h => ne_of_mem_toDigits (by decide) h rfl
  have htake {c : Char} (hc : c ∉ Nat.toDigits 10 s) (m : ℕ) : c ∉ (Nat.toDigits 10 s).take m :=
    fun h => hc (List.mem_of_mem_take h)
  have hdrop {c : Char} (hc : c ∉ Nat.toDigits 10 s) (m : ℕ) : c ∉ (Nat.toDigits 10 s).drop m :=
    fun h => hc (List.mem_of_mem_drop h)
  have hs : Nat.ofDigitChars 10 (Nat.toDigits 10 s) 0 = s := Nat.ofDigitChars_ten_toDigits
  have hlength : 0 < (Nat.toDigits 10 s).length := Nat.length_toDigits_pos
  unfold decimalText
  dsimp only
  generalize hk : (Nat.toDigits 10 s).length = k at hlength ⊢
  have hsigned := readExponent_signed (x + k - 1)
  generalize (if 0 ≤ x + k - 1 then '+' else '-') :: Nat.toDigits 10 (x + k - 1).natAbs = exponent
    at hsigned ⊢
  split_ifs with hplain hpoint hsmall hone
  · -- Digits and zeros.
    rw [String.toList_ofList]
    have hread := @readDecimal_whole (Nat.toDigits 10 s ++
      List.replicate (x + k - k).toNat '0') [] (by simp [he]) (by simp [hp]) (Or.inl rfl)
    rw [List.append_nil, ofDigitChars_append_zeros, hs] at hread
    rw [hread, List.tail_nil, readExponent_nil, zpow_zero, mul_one]
    push_cast
    rw [← zpow_natCast, show (((x + k - k).toNat : ℕ) : ℤ) = x by omega]
  · -- A point between the digits.
    rw [String.toList_ofList]
    have hread := @readDecimal_point _ _ [] (htake he (x + k).toNat)
      (htake hp (x + k).toNat) (hdrop he (x + k).toNat) (Or.inl rfl)
    rw [List.append_nil, List.take_append_drop, hs, List.length_drop, hk] at hread
    rw [hread, List.tail_nil, readExponent_nil]
    congr 2
    omega
  · -- Zeros behind the point.
    rw [String.toList_ofList]
    have hread := @readDecimal_point ['0']
      (List.replicate (-(x + k)).toNat '0' ++ Nat.toDigits 10 s) [] (by decide) (by decide)
      (by simp [he]) (Or.inl rfl)
    rw [List.append_nil, show (['0'] : List Char) = List.replicate 1 '0' from rfl,
      ofDigitChars_zeros_append, ofDigitChars_zeros_append, hs, List.length_append,
      List.length_replicate, hk, List.tail_nil, readExponent_nil] at hread
    refine Eq.trans hread ?_
    congr 2
    omega
  · -- One digit and an exponent.
    rw [String.toList_ofList, readDecimal_whole he hp (Or.inr ⟨_, rfl⟩), List.tail_cons, hs,
      hsigned]
    congr 2
    omega
  · -- Digits around a point and an exponent.
    rw [String.toList_ofList, readDecimal_point (htake he 1) (htake hp 1) (hdrop he 1)
      (Or.inr ⟨_, rfl⟩), List.tail_cons, List.take_append_drop, hs, List.length_drop, hk,
      hsigned]
    congr 2
    omega

/-! ### The shortest significand -/

variable {q : ℚ}

theorem exists_smallest (hq : ofRat q = fin q) :
    ∃ (m : ℤ) (a : ℕ), a = 1074 ∧ q = m * 2 ^ (-(a : ℤ)) := by
  have hround : q = roundPlace q := clip_eq_fin (ofRat_eq_clip q ▸ hq)
  obtain ⟨m, hm⟩ := grid_of_le (k := lastPlace q) (l := -1074) (by rw [lastPlace]; omega)
    (n := roundHalfEven _) hround
  exact ⟨m, 1074, rfl, hm⟩

theorem lt_overflow (hq : ofRat q = fin q) : q < 2 ^ (1024 : ℕ) := by
  have hround : q = roundPlace q := clip_eq_fin (ofRat_eq_clip q ▸ hq)
  by_contra hlarge
  rw [ofRat_eq_clip, ← hround, clip, if_pos (not_lt.mp hlarge)] at hq
  cases hq

theorem decimalExponent_le (hq : q < 2 ^ (1024 : ℕ)) : decimalExponent 340 q ≤ 309 := by
  by_cases hone : 1 ≤ q
  · have hfloor : ⌊q⌋.natAbs < 10 ^ 309 := by
      have hpos : 0 ≤ ⌊q⌋ := Int.floor_nonneg.mpr (zero_le_one.trans hone)
      have hlt : (⌊q⌋.natAbs : ℚ) < (2 ^ 1024 : ℕ) := by
        rw [Nat.cast_natAbs, abs_of_nonneg hpos, Nat.cast_pow]
        exact (Int.floor_le q).trans_lt hq
      have hpow : 2 ^ 1024 < 10 ^ 309 := by decide +kernel
      exact (Nat.cast_lt.mp hlt).trans hpow
    rw [decimalExponent, if_pos hone]
    exact_mod_cast (Nat.length_toDigits_le_iff (by norm_num) (by norm_num)).mpr hfloor
  · have := decimalExponent_nonpos (not_le.mp hone) 340
    omega

theorem two_zpow_mul_ten_zpow (a j : ℕ) :
    (2 : ℚ) ^ (-(a : ℤ)) * 10 ^ ((a : ℤ) + j) = 5 ^ a * 10 ^ j := by
  have hten : (10 : ℚ) ^ (a : ℤ) = 2 ^ (a : ℤ) * 5 ^ (a : ℤ) := by
    rw [← mul_zpow]
    norm_num
  rw [zpow_add₀ (by norm_num), hten, ← mul_assoc, ← mul_assoc, ← zpow_add₀ (by norm_num),
    neg_add_cancel, zpow_zero, one_mul, zpow_natCast, zpow_natCast]

theorem shortestDigits_reads (hpos : 0 < q) (hq : ofRat q = fin q) : let n := decimalExponent 340 q
    let r := shortestDigits q n 1400 1
    ofRat (r.1 * 10 ^ (n - r.2)) = fin q := by
  dsimp only
  obtain ⟨hround, hfuel | hreads⟩ := shortestDigits_spec q (decimalExponent 340 q) 1400 1
  · -- The search ran up to the exact expansion.
    have hexponent := decimalExponent_le (lt_overflow hq)
    obtain ⟨m, a, ha, hm⟩ := exists_smallest hq
    rw [hfuel] at hround ⊢
    generalize decimalExponent 340 q = n at hround hexponent ⊢
    obtain ⟨j, hj⟩ : ∃ j : ℕ, ((1 + 1400 : ℕ) : ℤ) - n = a + j :=
      ⟨((1 + 1400 : ℕ) - n - a : ℤ).toNat, by omega⟩
    have hwhole : q * 10 ^ (((1 + 1400 : ℕ) : ℤ) - n) = ((m * 5 ^ a * 10 ^ j : ℤ) : ℚ) := by
      rw [hj, hm, mul_assoc, two_zpow_mul_ten_zpow]
      push_cast
      ring
    rw [hwhole, roundHalfEven_intCast] at hround
    generalize m * 5 ^ a * 10 ^ j = z at hwhole hround
    have hz : 0 < z := by
      have : (0 : ℚ) < z := hwhole ▸ mul_pos hpos (zpow_pos (by norm_num) _)
      exact_mod_cast this
    have hvalue : ((shortestDigits q n 1400 1).1 : ℚ) * 10 ^ (n - ((1 + 1400 : ℕ) : ℤ)) = q := by
      rw [hround, Nat.cast_natAbs, abs_of_pos hz, ← hwhole, mul_assoc, ← zpow_add₀ (by norm_num),
        sub_add_sub_cancel, sub_self, zpow_zero, mul_one]
    rw [hvalue]
    exact hq
  · exact hreads
/-! ### Round trip -/

theorem ofRat_readDecimal (hpos : 0 < q) (hq : ofRat q = fin q) :
    ofRat (readDecimal (toText (fin q)).toList) = fin q := by
  rw [toText, if_neg hpos.not_gt]
  split_ifs with hexact
  · have hnum : 0 < q.num := Rat.num_pos.mpr hpos
    have hread := @readDecimal_whole (Nat.toDigits 10 q.num.toNat) []
      (fun h => ne_of_mem_toDigits (by decide) h rfl)
      (fun h => ne_of_mem_toDigits (by decide) h rfl) (Or.inl rfl)
    rw [List.append_nil, List.tail_nil, readExponent_nil, zpow_zero, mul_one,
      Nat.ofDigitChars_ten_toDigits] at hread
    rw [Int.toString_eq_repr, Int.repr_eq_if, if_pos hnum.le, Nat.toList_repr, hread]
    have hvalue : ((q.num.toNat : ℕ) : ℚ) = q := by
      rw [← Int.cast_natCast, Int.toNat_of_nonneg hnum.le]
      exact Rat.coe_int_num_of_den_eq_one hexact.1
    rw [hvalue]
    exact hq
  · have hreads := shortestDigits_reads hpos hq
    unfold positiveText
    dsimp only at hreads ⊢
    split_ifs with hten
    · rw [readDecimal_decimalText, ← hreads, hten]
      congr 1
      rw [zpow_add₀ (by norm_num)]
      push_cast
      ring
    · rw [readDecimal_decimalText, hreads]

theorem toText_injective {a b : JsNumber} (ha : a.isDouble = true) (hb : b.isDouble = true)
    (hpos : 0 < a) (hpos' : 0 < b) (hfinite : a.isFinite = true) (hfinite' : b.isFinite = true)
    (h : a.toText = b.toText) : a = b := by
  cases a with
  | fin p =>
    cases b with
    | fin q =>
      rw [zero_eq_fin, fin_lt_fin] at hpos hpos'
      rw [← ofRat_readDecimal hpos (isDouble_fin.mp ha), h,
        ofRat_readDecimal hpos' (isDouble_fin.mp hb)]
    | _ => cases hfinite'
  | _ => cases hfinite

end ChamaEscrow.Js.JsNumber
