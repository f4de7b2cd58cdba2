import Mathlib.Data.Rat.Floor
import Mathlib.Algebra.Order.Field.Rat
import Mathlib.Tactic.NormNum

/-!
# JavaScript numbers

Every amount, deadline and index of the engine is an IEEE 754 binary64 value.  A finite value is
kept as the rational it denotes, so `JsNumber` is that rational line with `NaN` and the two
infinities, and an arithmetic operation is the exact one followed by `ofRat`, the rounding to the
nearest binary64 value with ties to even.  The two zeros are one value here: no operation of the
engine tells them apart.

The main results are `ofInt_eq_fin` (an integer up to `2^53` is its own rounding) and, with it,
`add_ofNat`, that addition is exact as long as the sum stays below that bound.
-/

namespace ChamaEscrow.Js

/-- A binary64 value, a finite one as the rational it denotes. -/
inductive JsNumber
  | nan
  | posInf
  | negInf
  | fin (q : ℚ)
  deriving DecidableEq

namespace JsNumber

/-! ### Rounding -/

/-- The integer nearest `q`, the even one of two. -/
def roundHalfEven (q : ℚ) : ℤ :=
  let f := ⌊q⌋
  if q - f < 1 / 2 then f
  else if 1 / 2 < q - f then f + 1
  else if f % 2 = 0 then f
  else f + 1

/-- `⌊log₂ q⌋` of a positive rational. -/
def log2 (q : ℚ) : ℤ :=
  let k : ℤ := (Nat.log2 q.num.natAbs : ℤ) - Nat.log2 q.den
  if (2 : ℚ) ^ k ≤ q then k else k - 1

/-- The exponent of the last place of the binary64 values around `q`: 53 significant bits, and
never below the subnormal step `2^(-1074)`. -/
def lastPlace (q : ℚ) : ℤ := max (log2 |q| - 52) (-1074)

/-- The largest integer below which every integer is a binary64 value. -/
def maxExact : ℕ := 2 ^ 53

/-- Rounding of an exact result to binary64, ties to even, with overflow to an infinity. -/
def ofRat (q : ℚ) : JsNumber :=
  if q.den = 1 ∧ q.num.natAbs ≤ maxExact then fin q
  else
    let v := (roundHalfEven (q / 2 ^ lastPlace q) : ℚ) * 2 ^ lastPlace q
    if (2 : ℚ) ^ (1024 : ℕ) ≤ v then posInf
    else if v ≤ -(2 : ℚ) ^ (1024 : ℕ) then negInf
    else fin v

def ofInt (n : ℤ) : JsNumber := ofRat n

instance (n : ℕ) : OfNat JsNumber n := ⟨ofInt n⟩

/-! ### Arithmetic -/

/-- `-a`. -/
def neg : JsNumber → JsNumber
  | nan => nan
  | posInf => negInf
  | negInf => posInf
  | fin q => fin (-q)

/-- `a + b`. -/
def add : JsNumber → JsNumber → JsNumber
  | fin p, fin q => ofRat (p + q)
  | nan, _ | _, nan => nan
  | posInf, negInf | negInf, posInf => nan
  | posInf, _ | _, posInf => posInf
  | negInf, _ | _, negInf => negInf

/-- `a - b`. -/
def sub (a b : JsNumber) : JsNumber := add a b.neg

/-- An infinity with the sign of `q`, `NaN` at zero. -/
def signedInf (q : ℚ) : JsNumber := if 0 < q then posInf else if q < 0 then negInf else nan

/-- `a * b`. -/
def mul : JsNumber → JsNumber → JsNumber
  | fin p, fin q => ofRat (p * q)
  | nan, _ | _, nan => nan
  | posInf, posInf | negInf, negInf => posInf
  | posInf, negInf | negInf, posInf => negInf
  | posInf, fin q | fin q, posInf => signedInf q
  | negInf, fin q | fin q, negInf => signedInf (-q)

/-- `a / d` by a positive integer constant. -/
def divBy (d : ℕ) : JsNumber → JsNumber
  | fin q => ofRat (q / d)
  | a => a

/-- `a / b`. -/
def div : JsNumber → JsNumber → JsNumber
  | fin p, fin q => if q = 0 then signedInf p else ofRat (p / q)
  | nan, _ | _, nan => nan
  | posInf, fin q => if q < 0 then negInf else posInf
  | negInf, fin q => if q < 0 then posInf else negInf
  | fin _, _ => fin 0
  | _, _ => nan

/-- `Math.floor`. -/
def floor : JsNumber → JsNumber
  | fin q => ofRat ⌊q⌋
  | a => a

/-- `Math.ceil`. -/
def ceil : JsNumber → JsNumber
  | fin q => ofRat ⌈q⌉
  | a => a

instance : Add JsNumber := ⟨add⟩
instance : Sub JsNumber := ⟨sub⟩
instance : Mul JsNumber := ⟨mul⟩
instance : Div JsNumber := ⟨div⟩

/-! ### Comparison -/

/-- `a < b`, false as soon as one side is `NaN`. -/
def lt : JsNumber → JsNumber → Bool
  | fin p, fin q => p < q
  | nan, _ | _, nan => false
  | negInf, negInf | posInf, posInf => false
  | negInf, _ | _, posInf => true
  | posInf, _ | _, negInf => false

/-- `a <= b`. -/
def le : JsNumber → JsNumber → Bool
  | fin p, fin q => p ≤ q
  | nan, _ | _, nan => false
  | negInf, _ | _, posInf => true
  | posInf, _ | _, negInf => false

instance : LT JsNumber := ⟨fun a b => lt a b = true⟩
instance : LE JsNumber := ⟨fun a b => le a b = true⟩

instance (a b : JsNumber) : Decidable (a < b) := inferInstanceAs (Decidable (lt a b = true))
instance (a b : JsNumber) : Decidable (a ≤ b) := inferInstanceAs (Decidable (le a b = true))

/-- `a === b`: `NaN` is not equal to itself. -/
def strictEq (a b : JsNumber) : Bool := a ≠ nan && a = b

/-- `Math.min`, `NaN` when either side is. -/
def min (a b : JsNumber) : JsNumber :=
  if a = nan ∨ b = nan then nan else if a ≤ b then a else b

/-- `Math.max`. -/
def max (a b : JsNumber) : JsNumber :=
  if a = nan ∨ b = nan then nan else if a ≤ b then b else a

/-- `Math.abs`. -/
def abs (a : JsNumber) : JsNumber := if a < 0 then a.neg else a

/-! ### Predicates -/

/-- `Number.isFinite`. -/
def isFinite : JsNumber → Bool
  | fin _ => true
  | _ => false

/-- `Number.isInteger`. -/
def isInteger : JsNumber → Bool
  | fin q => q.den = 1
  | _ => false

/-- `Number.isSafeInteger`: an integer below `2^53` in absolute value. -/
def isSafeInteger : JsNumber → Bool
  | fin q => q.den = 1 && q.num.natAbs < maxExact
  | _ => false

/-- `Number.MAX_SAFE_INTEGER`. -/
def maxSafeInteger : JsNumber := ofInt (maxExact - 1)

/-! ### Decimal text -/

/-- The decimal exponent of a positive `q`: the `n` with `10^(n-1) ≤ q < 10^n`.  Below one the
search for it stops at the smallest binary64 value, which `fuel` covers. -/
def decimalExponent : (fuel : ℕ) → ℚ → ℤ
  | 0, _ => 0
  | fuel + 1, q =>
    if 1 ≤ q then (Nat.toDigits 10 ⌊q⌋.natAbs).length
    else decimalExponent fuel (q * 10) - 1

/-- The shortest decimal significand that reads back as `q`, with its number of digits, tried from
`k` digits upwards.  Seventeen are the most that a binary64 value asks for; `fuel` leads up to its
exact expansion. -/
def shortestDigits (q : ℚ) (n : ℤ) : (fuel k : ℕ) → ℕ × ℕ
  | 0, k => ((roundHalfEven (q * 10 ^ ((k : ℤ) - n))).natAbs, k)
  | fuel + 1, k =>
    let s := (roundHalfEven (q * 10 ^ ((k : ℤ) - n))).natAbs
    if ofRat (s * 10 ^ (n - k)) = fin q then (s, k) else shortestDigits q n fuel (k + 1)

/-- The text of `s * 10 ^ x`. -/
def decimalText (s : ℕ) (x : ℤ) : String :=
  let digits := Nat.toDigits 10 s
  let k : ℤ := digits.length
  let n := x + k
  let zeros (m : ℤ) := List.replicate m.toNat '0'
  if k ≤ n ∧ n ≤ 21 then String.ofList (digits ++ zeros (n - k))
  else if 0 < n ∧ n ≤ 21 then
    String.ofList (digits.take n.toNat ++ '.' :: digits.drop n.toNat)
  else if -6 < n ∧ n ≤ 0 then String.ofList ('0' :: '.' :: zeros (-n) ++ digits)
  else
    let e := n - 1
    let mantissa := if k = 1 then digits else digits.take 1 ++ '.' :: digits.drop 1
    String.ofList (mantissa ++ 'e' :: (if 0 ≤ e then '+' else '-') :: Nat.toDigits 10 e.natAbs)

/-- The text of a positive finite value that is no exact integer.  A single digit that is rounded up
to ten is a one of the next place. -/
def positiveText (q : ℚ) : String :=
  let n := decimalExponent 340 q
  let (s, k) := shortestDigits q n 1400 1
  if s = 10 then decimalText 1 (n - k + 1) else decimalText s (n - k)

/-- `String(a)`. -/
def toText : JsNumber → String
  | nan => "NaN"
  | posInf => "Infinity"
  | negInf => "-Infinity"
  | fin q =>
    if q.den = 1 ∧ q.num.natAbs ≤ maxExact then toString q.num
    else if q < 0 then "-" ++ positiveText (-q)
    else positiveText q

instance : ToString JsNumber := ⟨toText⟩

/-! ### Exact integers -/

theorem ofRat_ne_nan (q : ℚ) : ofRat q ≠ nan := by
  unfold ofRat
  split_ifs
  · simp
  · dsimp only
    split_ifs <;> simp

theorem ofInt_ne_nan (n : ℤ) : ofInt n ≠ nan := ofRat_ne_nan n

theorem eq_of_strictEq {a b : JsNumber} (h : a.strictEq b = true) : a = b := by
  simp only [strictEq, Bool.and_eq_true, decide_eq_true_eq] at h
  exact h.2

theorem ofInt_eq_fin {n : ℤ} (h : n.natAbs ≤ maxExact) : ofInt n = fin n := by
  unfold ofInt ofRat
  rw [if_pos]
  exact ⟨Rat.den_intCast n, by rwa [Rat.num_intCast]⟩

theorem one_eq_fin : (1 : JsNumber) = fin ((1 : ℤ) : ℚ) := ofInt_eq_fin (by decide)

theorem fin_le_fin {p q : ℚ} : fin p ≤ fin q ↔ p ≤ q := by
  change decide (p ≤ q) = true ↔ _
  exact decide_eq_true_iff

theorem fin_lt_fin {p q : ℚ} : fin p < fin q ↔ p < q := by
  change decide (p < q) = true ↔ _
  exact decide_eq_true_iff

/-- The number of a count. -/
theorem ofInt_natCast {n : ℕ} (h : n ≤ maxExact) : ofInt n = fin n := by
  rw [ofInt_eq_fin (by simpa using h), Int.cast_natCast]

theorem ofInt_le_ofInt {m n : ℕ} (hm : m ≤ maxExact) (hn : n ≤ maxExact) :
    ofInt m ≤ ofInt n ↔ m ≤ n := by
  rw [ofInt_natCast hm, ofInt_natCast hn, fin_le_fin, Nat.cast_le]

/-- Addition of counts is exact as long as the sum is at most `2^53`. -/
theorem add_ofNat {m n : ℕ} (h : m + n ≤ maxExact) :
    ofInt m + ofInt n = ofInt ((m + n : ℕ) : ℤ) := by
  rw [ofInt_eq_fin (n := m) (by simp; omega), ofInt_eq_fin (n := n) (by simp; omega)]
  change ofRat _ = _
  unfold ofInt
  congr 1
  push_cast
  rfl

/-- An integer that is no natural number, a fraction, an infinity or `NaN` has no index. -/
def toNat? : JsNumber → Option ℕ
  | fin q => if q.den = 1 ∧ 0 ≤ q.num then some q.num.toNat else none
  | _ => none

theorem toNat?_eq_some {a : JsNumber} {n : ℕ} (h : a.toNat? = some n) : a = fin n := by
  unfold toNat? at h
  split at h
  case h_1 q =>
    split_ifs at h with hq
    simp only [Option.some.injEq] at h
    obtain ⟨hden, hnum⟩ := hq
    congr 1
    rw [← Rat.num_div_den q, hden]
    have : (q.num : ℚ) = ((q.num.toNat : ℤ) : ℚ) := by rw [Int.toNat_of_nonneg hnum]
    simp [this, h]
  case h_2 => cases h

end JsNumber
end ChamaEscrow.Js
