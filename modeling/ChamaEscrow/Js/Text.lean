import ChamaEscrow.Js.Rounding
import ChamaEscrow.Js.Value
import Mathlib.Data.Nat.Digits.Defs

/-!
# Indices and their text

A share is filed under the text of its index, and a list of indices is compared through the texts it
joins.  Both rely on two facts about `JsNumber.toText`.

* `IsSeparator.notMem_toText`: no number prints a separator, so joined texts can be split again.
* `toText_eq_digit`: one number alone prints a given digit.

A text whose characters are bytes (`latin1`) gives the bytes back.
-/

namespace ChamaEscrow.Js

namespace JsNumber

/-! ### Separators -/

def IsSeparator (c : Char) : Prop := c ∈ [',', ':', '|']

instance (c : Char) : Decidable (IsSeparator c) := inferInstanceAs (Decidable (c ∈ _))

variable {c : Char}

theorem IsSeparator.eq (h : IsSeparator c) : c = ',' ∨ c = ':' ∨ c = '|' := by
  simpa [IsSeparator] using h

theorem IsSeparator.notMem_toDigits (h : IsSeparator c) (n : ℕ) : c ∉ Nat.toDigits 10 n := by
  intro hmem
  have hdigit := Nat.isDigit_of_mem_toDigits (by norm_num) (by norm_num) hmem
  rcases h.eq with rfl | rfl | rfl <;> simp at hdigit

theorem IsSeparator.notMem_toString_int (h : IsSeparator c) (n : ℤ) : c ∉ (toString n).toList := by
  rw [Int.toString_eq_repr, Int.repr_eq_if]
  have hminus : c ≠ '-' := by
    rcases h.eq with rfl | rfl | rfl <;> decide
  split_ifs <;> simp [Nat.toList_repr, h.notMem_toDigits, hminus]

theorem IsSeparator.notMem_decimalText (h : IsSeparator c) (s : ℕ) (x : ℤ) :
    c ∉ (decimalText s x).toList := by
  have hdigits := h.notMem_toDigits
  have htake (n m : ℕ) : c ∉ (Nat.toDigits 10 n).take m :=
    fun hmem => hdigits n (List.mem_of_mem_take hmem)
  have hdrop (n m : ℕ) : c ∉ (Nat.toDigits 10 n).drop m :=
    fun hmem => hdigits n (List.mem_of_mem_drop hmem)
  have htail (n : ℕ) : c ∉ (Nat.toDigits 10 n).tail :=
    fun hmem => hdigits n (List.mem_of_mem_tail hmem)
  have hmarks : c ≠ '.' ∧ c ≠ '0' ∧ c ≠ 'e' ∧ c ≠ '+' ∧ c ≠ '-' := by
    rcases h.eq with rfl | rfl | rfl <;> decide
  unfold decimalText
  dsimp only
  split_ifs <;> simp [hdigits, htake, hdrop, htail, hmarks]

theorem IsSeparator.notMem_positiveText (h : IsSeparator c) (q : ℚ) :
    c ∉ (positiveText q).toList := by
  unfold positiveText
  dsimp only
  split_ifs <;> exact h.notMem_decimalText _ _

theorem IsSeparator.notMem_toText (h : IsSeparator c) (a : JsNumber) : c ∉ a.toText.toList := by
  cases a with
  | nan => rcases h.eq with rfl | rfl | rfl <;> decide
  | posInf => rcases h.eq with rfl | rfl | rfl <;> decide
  | negInf => rcases h.eq with rfl | rfl | rfl <;> decide
  | fin q =>
    have hminus : c ≠ '-' := by
      rintro rfl
      exact absurd h (by decide)
    rw [toText]
    split_ifs
    · exact h.notMem_toString_int q.num
    · simp [h.notMem_positiveText, hminus]
    · exact h.notMem_positiveText q

theorem intercalate_comma_inj {l l' : List String} (hl : ∀ t ∈ l, ',' ∉ t.toList)
    (hl' : ∀ t ∈ l', ',' ∉ t.toList) (hne : l ≠ []) (hne' : l' ≠ [])
    (h : ",".intercalate l = ",".intercalate l') : l = l' := by
  have split {l : List String} (hl : ∀ t ∈ l, ',' ∉ t.toList) (hne : l ≠ []) :
      (",".intercalate l).toList.splitOn ',' = l.map String.toList := by
    rw [String.toList_intercalate]
    refine List.splitOn_intercalate ',' (fun t ht => ?_) (by simpa using hne)
    obtain ⟨text, htext, rfl⟩ := List.mem_map.mp ht
    exact hl text htext
  have hmap : l.map String.toList = l'.map String.toList := by
    rw [← split hl hne, h, split hl' hne']
  exact List.map_injective_iff.mpr (fun _ _ => String.toList_inj.mp) hmap

/-! ### Digits -/

theorem toDigits_eq_singleton {n d : ℕ} (hd : d < 10) (h : Nat.toDigits 10 n = [d.digitChar]) :
    n = d := by
  rw [← Nat.toDigits_of_lt_base hd] at h
  rw [← Nat.ofDigitChars_ten_toDigits (n := n), h, Nat.ofDigitChars_ten_toDigits]

variable {q : ℚ}

/-- Below one there are no digits before the point. -/
theorem decimalExponent_nonpos (h : q < 1) (fuel : ℕ) : decimalExponent fuel q ≤ 0 := by
  induction fuel generalizing q with
  | zero => rw [decimalExponent]
  | succ fuel ih =>
    rw [decimalExponent, if_neg (not_le.mpr h)]
    by_cases hten : q * 10 < 1
    · have := ih hten
      omega
    · cases fuel with
      | zero =>
        rw [decimalExponent]
        omega
      | succ fuel =>
        rw [decimalExponent, if_pos (not_lt.mp hten)]
        have hfloor : ⌊q * 10⌋.natAbs < 10 := by
          have hlt : ⌊q * 10⌋ < 10 := Int.floor_lt.mpr (by push_cast; linarith)
          have hpos : 0 ≤ ⌊q * 10⌋ := Int.floor_nonneg.mpr (by linarith)
          omega
        rw [Nat.toDigits_of_lt_base hfloor]
        simp

/-- The digits of a significand are those of the rounded value, which reads back unless all
seventeen were needed. -/
theorem shortestDigits_spec (q : ℚ) (n : ℤ) (fuel k : ℕ) :
    let r := shortestDigits q n fuel k
    r.1 = (roundHalfEven (q * 10 ^ ((r.2 : ℤ) - n))).natAbs ∧
      (r.2 = k + fuel ∨ ofRat (r.1 * 10 ^ (n - r.2)) = fin q) := by
  induction fuel generalizing k with
  | zero => exact ⟨rfl, Or.inl rfl⟩
  | succ fuel ih =>
    rw [shortestDigits]
    split_ifs with h
    · exact ⟨rfl, Or.inr h⟩
    · obtain ⟨hdigits, hfuel⟩ := ih (k + 1)
      refine ⟨hdigits, hfuel.imp_left fun h => ?_⟩
      omega

theorem decimalText_eq_digit {s : ℕ} {x : ℤ} {d : ℕ} (hd : d < 10)
    (h : (decimalText s x).toList = [d.digitChar]) : s = d ∧ x = 0 := by
  have hdigit : d.digitChar.isDigit = true := by
    rw [Nat.isDigit_digitChar, decide_eq_true_eq]
    exact hd
  have hmem {c : Char} {l : List Char} (hc : c ∈ l) (hnot : c.isDigit = false) :
      l ≠ [d.digitChar] := by
    rintro rfl
    rw [List.mem_singleton.mp hc, hdigit] at hnot
    cases hnot
  unfold decimalText at h
  dsimp only at h
  split_ifs at h with hplain hpoint hsmall hone hsign
  · rw [String.toList_ofList, List.append_eq_singleton_iff] at h
    rcases h with ⟨h, -⟩ | ⟨hdigits, hzeros⟩
    · exact absurd h Nat.toDigits_ne_nil
    · have hx : (x + (Nat.toDigits 10 s).length - (Nat.toDigits 10 s).length).toNat = 0 := by
        simpa using hzeros
      exact ⟨toDigits_eq_singleton hd hdigits, by omega⟩
  · exact absurd h (hmem (c := '.') (by simp) (by decide))
  · exact absurd h (hmem (c := '.') (by simp) (by decide))
  all_goals exact absurd h (hmem (c := 'e') (by simp) (by decide))

theorem floor_of_decimalExponent (h : 3 ≤ decimalExponent 340 q) : 100 ≤ ⌊q⌋ := by
  have hq : 1 ≤ q := by
    by_contra hlt
    have := decimalExponent_nonpos (not_le.mp hlt) 340
    omega
  rw [decimalExponent, if_pos hq] at h
  have hlarge : ¬ ⌊q⌋.natAbs < 10 ^ 2 := by
    intro hlt
    have := (Nat.length_toDigits_le_iff (b := 10) (k := 2) (by norm_num) (by norm_num)).mpr hlt
    omega
  have hpos : 0 ≤ ⌊q⌋ := Int.floor_nonneg.mpr (zero_le_one.trans hq)
  omega

theorem significand_of_decimalExponent (h : 3 ≤ decimalExponent 340 q) {j : ℤ}
    (hj : 0 ≤ j) : 100 ≤ (roundHalfEven (q * 10 ^ j)).natAbs := by
  have hfloor := floor_of_decimalExponent h
  have hq : (0 : ℚ) ≤ q := by
    have hcast : ((100 : ℤ) : ℚ) ≤ ⌊q⌋ := by exact_mod_cast hfloor
    have := Int.floor_le q
    push_cast at hcast
    linarith
  have hle : ⌊q⌋ ≤ ⌊q * 10 ^ j⌋ :=
    Int.floor_mono (le_mul_of_one_le_right hq (one_le_zpow₀ (by norm_num) hj))
  have := floor_le_roundHalfEven (q * 10 ^ j)
  omega

theorem positiveText_ne_digit (hq : ¬ (q.den = 1 ∧ q.num.natAbs ≤ maxExact)) {d : ℕ}
    (hd : d < 10) : (positiveText q).toList ≠ [d.digitChar] := by
  have hreads_digit {c : ℕ} (hc : c ≤ 10) (h : ofRat ((c : ℕ) : ℚ) = fin q) : False := by
    have hexact : ofRat ((c : ℕ) : ℚ) = fin c := by
      have := ofInt_natCast (n := c) (by rw [maxExact]; omega)
      rwa [ofInt, Int.cast_natCast] at this
    rw [hexact, fin.injEq] at h
    subst h
    exact hq ⟨Rat.den_natCast c, by rw [Rat.num_natCast, maxExact]; omega⟩
  intro htext
  unfold positiveText at htext
  dsimp only at htext
  obtain ⟨hround, hreads⟩ := shortestDigits_spec q (decimalExponent 340 q) 1400 1
  generalize shortestDigits q (decimalExponent 340 q) 1400 1 = r at hround hreads htext
  obtain ⟨s, k⟩ := r
  dsimp only at hround hreads htext
  split_ifs at htext with hten
  · obtain ⟨-, hx⟩ := decimalText_eq_digit hd htext
    rcases hreads with rfl | hreads
    · have := significand_of_decimalExponent (q := q) (j := (1 + 1400 : ℕ) - decimalExponent 340 q)
        (by omega) (by omega)
      omega
    · refine hreads_digit (c := 1) (by norm_num) ?_
      rw [hten, show decimalExponent 340 q - k = -1 by omega] at hreads
      norm_num at hreads ⊢
      exact hreads
  · obtain ⟨hs, hx⟩ := decimalText_eq_digit hd htext
    rcases hreads with rfl | hreads
    · have := significand_of_decimalExponent (q := q) (j := (1 + 1400 : ℕ) - decimalExponent 340 q)
        (by omega) (by omega)
      omega
    · refine hreads_digit (c := s) (by omega) ?_
      rwa [hx, zpow_zero, mul_one] at hreads

theorem toText_eq_digit {a : JsNumber} {d : ℕ} (hd : d < 10) (h : a.toText = toString d) :
    a = ofInt d := by
  have htext : a.toText.toList = [d.digitChar] := by
    rw [h, Nat.toString_eq_repr, Nat.toList_repr, Nat.toDigits_of_lt_base hd]
  cases a with
  | nan => simp [toText] at htext
  | posInf => simp [toText] at htext
  | negInf => simp [toText] at htext
  | fin q =>
    rw [toText] at htext h
    split_ifs at htext h with hexact hneg
    · have hnum : q.num = d := by
        rw [Int.toString_eq_repr, Int.repr_eq_if] at htext
        split_ifs at htext with hpos
        · rw [Nat.toList_repr] at htext
          have := toDigits_eq_singleton hd htext
          omega
        · simp at htext
      rw [ofInt_natCast (by rw [maxExact]; omega), ← Rat.num_div_den q, hexact.1, hnum]
      simp
    · simp at htext
    · exact absurd htext (positiveText_ne_digit hexact hd)

theorem ofInt_inj_of_lt {m n : ℕ} (hn : n < maxExact) (h : ofInt m = ofInt n) : m = n := by
  rw [ofInt_natCast hn.le] at h
  rcases lt_or_ge maxExact m with hm | hm
  · -- A larger count is rounded, but never below the next one that is exact.
    have hle : ofInt ((n + 1 : ℕ) : ℤ) ≤ ofInt m := by
      refine ofRat_mono ?_
      push_cast
      exact_mod_cast (Nat.succ_le_of_lt (hn.trans hm) : n + 1 ≤ m)
    rw [h, ofInt_natCast (Nat.succ_le_of_lt hn), fin_le_fin] at hle
    push_cast at hle
    linarith
  · rw [ofInt_natCast hm, fin.injEq] at h
    exact_mod_cast h

end JsNumber

/-! ### Values -/

namespace JsValue

variable {v w : JsValue} {key : String}

theorem getOptional_of_get (h : v.get key = .ok w) : v.getOptional key = w := by
  cases v with
  | undefined => cases h
  | null => cases h
  | _ => exact Except.ok.inj h

theorem eq_num_of_strictEq {n : JsNumber} (h : v.strictEq (.num n) = true) : v = .num n := by
  cases v with
  | num m =>
    simp only [strictEq, JsNumber.strictEq, Bool.and_eq_true, decide_eq_true_eq] at h
    rw [h.2]
  | _ => cases h

variable {entries : List JsValue}

theorem spread_orElse (h : v.spread = .ok entries) : (v.orElse w).spread = .ok entries := by
  cases v with
  | arr items => exact h
  | str s => exact h
  | _ => cases h

theorem length_of_spread (h : v.spread = .ok entries) :
    v.getOptional "length" = .num (.ofInt entries.length) := by
  cases v with
  | arr items =>
    obtain rfl := Except.ok.inj h
    simp [getOptional, member]
  | str s =>
    obtain rfl := Except.ok.inj h
    simp [getOptional, member, textChars]
  | _ => cases h

end JsValue

/-! ### Bytes as text -/

def latin1 (bytes : List UInt8) : String := String.ofList (bytes.map fun b => Char.ofNat b.toNat)

def ofLatin1 (text : String) : List UInt8 := text.toList.map fun c => c.toNat.toUInt8

theorem toNat_charOfNat : ∀ n < 256, (Char.ofNat n).toNat = n := by decide +kernel

theorem ofLatin1_latin1 (bytes : List UInt8) : ofLatin1 (latin1 bytes) = bytes := by
  unfold ofLatin1 latin1
  rw [String.toList_ofList, List.map_map]
  refine List.map_id'' (fun b => ?_) bytes
  show (Char.ofNat b.toNat).toNat.toUInt8 = b
  rw [toNat_charOfNat _ b.toNat_lt]
  exact UInt8.ofNat_toNat

end ChamaEscrow.Js
