import ChamaEscrow.Library.Guarded
import ChamaEscrow.Library.Positional
import Mathlib.Algebra.Order.Ring.Int
import Mathlib.Data.Nat.Bitwise
import Mathlib.Tactic.Positivity

/-!
# Regrouping the bits of an LNURL

`convertBits` (`payments/lnurl.ts`) reads a list of words as one string of bits and cuts it into
words of another length.  The bits are those of one number, so what the loop has pushed are the
highest digits of that number in the new base, and its accumulator holds the rest.

* `convertBits_padded`, `convertBits_unpadded`: what each direction computes.
* `lnurl_regrouping`: the words of some bytes give the bytes back, and only such words are read.
-/

namespace ChamaEscrow.Lnurl

open Library

/-! ### The conversion -/

/-- What `convertBits` throws. -/
inductive LnurlError
  | parseError (message : String)
  deriving DecidableEq

/-- A number as the operands of a bitwise operation are read: 32 bits, the highest one a sign. -/
def toInt32 (value : ℤ) : ℤ := value.bmod (2 ^ 32)

/-- `(1 << toBits) - 1`. -/
def maxv (toBits : ℕ) : ℕ := 2 ^ toBits - 1

/-- The state of the loop. -/
structure Buffer where
  acc : ℕ
  bits : ℕ
  ret : List ℕ

/-- The inner loop: it pushes whole words while the accumulator has one.  A word takes at least one
bit, so `bits` rounds are enough. -/
def Buffer.pushWords (toBits : ℕ) : (fuel : ℕ) → Buffer → Buffer
  | 0, b => b
  | fuel + 1, b =>
    if toBits ≤ b.bits then
      pushWords toBits fuel
        { acc := b.acc
          bits := b.bits - toBits
          ret := b.ret ++ [(b.acc >>> (b.bits - toBits)) &&& maxv toBits] }
    else b

/-- One round of the outer loop.  The accumulator stays below `2 ^ (fromBits + toBits - 1)`, so that
no shift of it leaves the 32 bits. -/
def Buffer.take (fromBits toBits : ℕ) (b : Buffer) (value : ℤ) : Except LnurlError Buffer :=
  if value < 0 ∨ toInt32 value >>> fromBits ≠ 0 then
    .error (.parseError "LNURL contains invalid bech32 data")
  else
    let maxAcc := 2 ^ (fromBits + toBits - 1) - 1
    let acc := ((b.acc <<< fromBits) ||| (toInt32 value).toNat) &&& maxAcc
    .ok (Buffer.pushWords toBits (b.bits + fromBits) ⟨acc, b.bits + fromBits, b.ret⟩)

def convertBits (data : List ℤ) (fromBits toBits : ℕ) (pad : Bool) :
    Except LnurlError (List ℕ) := do
  let b ← data.foldlM (Buffer.take fromBits toBits) ⟨0, 0, []⟩
  let rest := (b.acc <<< (toBits - b.bits)) &&& maxv toBits
  if pad then
    return if 0 < b.bits then b.ret ++ [rest] else b.ret
  else if fromBits ≤ b.bits ∨ rest ≠ 0 then
    throw (.parseError "LNURL has invalid bech32 padding")
  else return b.ret

/-! ### The number of the bits -/

def wordsOf (digits : List ℕ) : List ℤ := digits.map fun d : ℕ => (d : ℤ)

variable {digits : List ℕ}

section Regroup

variable {fromBits toBits : ℕ}

/-- The state of the loop after the words `digits`: the highest digits of their number are pushed,
the accumulator holds what is left of it. -/
structure Regroups (fromBits toBits : ℕ) (digits : List ℕ) (b : Buffer) : Prop where
  bits : b.bits = fromBits * digits.length % toBits
  acc : b.acc = valueOf (2 ^ fromBits) digits % 2 ^ (fromBits + toBits - 1)
  ret : b.ret = digitsOf (2 ^ toBits) (fromBits * digits.length / toBits)
    (valueOf (2 ^ fromBits) digits / 2 ^ b.bits)

theorem toInt32_of_lt {v : ℕ} (hfrom : fromBits ≤ 31) (hv : v < 2 ^ fromBits) :
    toInt32 v = v := by
  have hpow : 2 ^ fromBits ≤ 2 ^ 31 := Nat.pow_le_pow_right (by omega) hfrom
  unfold toInt32
  rw [Int.bmod_eq_of_le (by omega) (by omega)]

theorem word_of_acc {V M n : ℕ} (h : n + toBits ≤ M) :
    ((V % 2 ^ M) >>> n) &&& maxv toBits = V / 2 ^ n % 2 ^ toBits := by
  have hsplit : 2 ^ M = 2 ^ n * 2 ^ (M - n) := by
    rw [← pow_add]
    congr 1
    omega
  rw [maxv, Nat.and_two_pow_sub_one_eq_mod, Nat.shiftRight_eq_div_pow, hsplit,
    Nat.mod_mul_right_div_self]
  exact Nat.mod_mod_of_dvd _ (Nat.pow_dvd_pow 2 (by omega))

theorem pushWords_spec {V M : ℕ} (hto : 0 < toBits) (fuel k : ℕ) (b : Buffer)
    (hfuel : b.bits ≤ fuel) (hacc : b.acc = V % 2 ^ M) (hbits : b.bits ≤ M)
    (hret : b.ret = digitsOf (2 ^ toBits) k (V / 2 ^ b.bits)) :
    Buffer.pushWords toBits fuel b = {
      acc := b.acc
      bits := b.bits % toBits
      ret := digitsOf (2 ^ toBits) (k + b.bits / toBits) (V / 2 ^ (b.bits % toBits)) } := by
  induction fuel generalizing k b with
  | zero =>
    have hzero : b.bits = 0 := by omega
    rw [hzero] at hret
    simp only [Buffer.pushWords, hzero, Nat.zero_mod, Nat.zero_div, Nat.add_zero, ← hret]
    rw [← hzero]
  | succ fuel ih =>
    rw [Buffer.pushWords]
    by_cases hword : toBits ≤ b.bits
    · have hdown : b.bits - toBits + toBits = b.bits := by omega
      have hdiv : V / 2 ^ (b.bits - toBits) / 2 ^ toBits = V / 2 ^ b.bits := by
        rw [Nat.div_div_eq_div_mul, ← pow_add, hdown]
      rw [if_pos hword, ih (k + 1)]
      · -- one word further down, the same quotient and remainder
        have hmod : (b.bits - toBits) % toBits = b.bits % toBits := by
          rw [← Nat.add_mod_right, hdown]
        have hcount : k + 1 + (b.bits - toBits) / toBits = k + b.bits / toBits := by
          have := Nat.add_div_right (b.bits - toBits) hto
          rw [hdown] at this
          omega
        rw [hmod, hcount]
      · show b.bits - toBits ≤ fuel
        omega
      · exact hacc
      · show b.bits - toBits ≤ M
        omega
      · show b.ret ++ [(b.acc >>> (b.bits - toBits)) &&& maxv toBits] = _
        rw [digitsOf, hdiv, ← hret, hacc, word_of_acc (by omega)]
    · have hsmall : b.bits < toBits := by omega
      rw [if_neg hword, Nat.mod_eq_of_lt hsmall, Nat.div_eq_of_lt hsmall, Nat.add_zero, ← hret]

/-- One more word. -/
theorem Regroups.take {b : Buffer} (h : Regroups fromBits toBits digits b)
    (hto : 0 < toBits) (hfrom : fromBits ≤ 31) {v : ℕ} (hv : v < 2 ^ fromBits) :
    ∃ b', b.take fromBits toBits v = .ok b' ∧
      Regroups fromBits toBits (digits ++ [v]) b' := by
  have hint := toInt32_of_lt hfrom hv
  have hshift : ((v : ℕ) : ℤ) >>> fromBits = 0 := by
    have : v >>> fromBits = 0 := by
      rw [Nat.shiftRight_eq_div_pow, Nat.div_eq_of_lt hv]
    exact_mod_cast this
  have hbits : b.bits < toBits := by
    rw [h.bits]
    exact Nat.mod_lt _ hto
  have hvalue : valueOf (2 ^ fromBits) (digits ++ [v])
      = valueOf (2 ^ fromBits) digits * 2 ^ fromBits + v := valueOf_concat digits v
  have hacc : ((b.acc <<< fromBits) ||| v) &&& (2 ^ (fromBits + toBits - 1) - 1)
      = valueOf (2 ^ fromBits) (digits ++ [v]) % 2 ^ (fromBits + toBits - 1) := by
    rw [Nat.and_two_pow_sub_one_eq_mod, ← Nat.shiftLeft_add_eq_or_of_lt hv, h.acc, hvalue,
      Nat.shiftLeft_eq, Nat.add_mod, Nat.mod_mul_mod, ← Nat.add_mod]
  have hret : b.ret = digitsOf (2 ^ toBits) (fromBits * digits.length / toBits)
      (valueOf (2 ^ fromBits) (digits ++ [v]) / 2 ^ (b.bits + fromBits)) := by
    have hdiv : valueOf (2 ^ fromBits) (digits ++ [v]) / 2 ^ fromBits
        = valueOf (2 ^ fromBits) digits := by
      rw [hvalue, Nat.add_comm, Nat.add_mul_div_right _ _ (by positivity), Nat.div_eq_of_lt hv,
        Nat.zero_add]
    rw [h.ret, Nat.add_comm b.bits, pow_add, ← Nat.div_div_eq_div_mul, hdiv]
  have hlength : fromBits * (digits ++ [v]).length = fromBits * digits.length + fromBits := by
    rw [List.length_append, List.length_singleton, Nat.mul_add, Nat.mul_one]
  have hmod : (b.bits + fromBits) % toBits = fromBits * (digits ++ [v]).length % toBits := by
    rw [h.bits, hlength, Nat.mod_add_mod]
  have hpush := pushWords_spec hto (b.bits + fromBits) (fromBits * digits.length / toBits)
    ⟨_, b.bits + fromBits, b.ret⟩ (Nat.le_refl _) hacc (by show b.bits + fromBits ≤ _; omega) hret
  have htake : b.take fromBits toBits v = .ok (Buffer.pushWords toBits
      (b.bits + fromBits) ⟨((b.acc <<< fromBits) ||| v) &&& (2 ^ (fromBits + toBits - 1) - 1),
        b.bits + fromBits, b.ret⟩) := by
    rw [Buffer.take, hint, if_neg (by simp [hshift])]
    rfl
  refine ⟨_, htake, ?_⟩
  rw [hpush]
  refine ⟨hmod, hacc, ?_⟩
  have hcount : fromBits * digits.length / toBits + (b.bits + fromBits) / toBits
      = fromBits * (digits ++ [v]).length / toBits := by
    rw [h.bits, hlength]
    have hdm := Nat.div_add_mod (fromBits * digits.length) toBits
    conv_rhs => rw [← hdm, Nat.add_assoc, Nat.mul_add_div hto]
  show digitsOf _ (_ + (b.bits + fromBits) / toBits) (_ / 2 ^ ((b.bits + fromBits) % toBits)) = _
  rw [hcount]

theorem regroups_nil : Regroups fromBits toBits [] ⟨0, 0, []⟩ := by
  refine ⟨?_, ?_, ?_⟩
  · simp
  · simp
  · simp [digitsOf]

/-- The whole loop. -/
theorem regroups_foldlM (hto : 0 < toBits) (hfrom : fromBits ≤ 31)
    (hdigits : ∀ d ∈ digits, d < 2 ^ fromBits) :
    ∃ b, (wordsOf digits).foldlM (Buffer.take fromBits toBits) ⟨0, 0, []⟩ = .ok b ∧
      Regroups fromBits toBits digits b := by
  induction digits using List.reverseRecOn with
  | nil => exact ⟨_, rfl, regroups_nil⟩
  | append_singleton digits d ih =>
    obtain ⟨b, hb, hregroups⟩ := ih fun d' hd' => hdigits d' (List.mem_append_left _ hd')
    obtain ⟨b', hb', hregroups'⟩ := hregroups.take hto hfrom (hdigits d (by simp))
    refine ⟨b', ?_, hregroups'⟩
    rw [wordsOf, List.map_append, List.foldlM_append, ← wordsOf, hb]
    simp [hb', bind_eq_ok]

theorem rest_of_acc {b : Buffer} (h : Regroups fromBits toBits digits b)
    (hfrom : 0 < fromBits) (hto : 0 < toBits) :
    (b.acc <<< (toBits - b.bits)) &&& maxv toBits
      = valueOf (2 ^ fromBits) digits * 2 ^ (toBits - b.bits) % 2 ^ toBits := by
  have hdvd : 2 ^ toBits ∣ 2 ^ (fromBits + toBits - 1) := Nat.pow_dvd_pow 2 (by omega)
  rw [maxv, Nat.and_two_pow_sub_one_eq_mod, Nat.shiftLeft_eq, h.acc, Nat.mul_mod,
    Nat.mod_mod_of_dvd _ hdvd, ← Nat.mul_mod]

/-- The number of words that `n` bits fill, the last one perhaps not quite. -/
def wordCount (toBits n : ℕ) : ℕ := (n + toBits - 1) / toBits

theorem wordCount_eq {toBits n : ℕ} (hto : 0 < toBits) :
    wordCount toBits n = if n % toBits = 0 then n / toBits else n / toBits + 1 := by
  have hdm := Nat.div_add_mod n toBits
  have hlt := Nat.mod_lt n hto
  unfold wordCount
  split_ifs with h
  · have hsum : n + toBits - 1 = toBits * (n / toBits) + (toBits - 1) := by
      generalize toBits * (n / toBits) = whole at hdm ⊢
      omega
    have hnone : (toBits - 1) / toBits = 0 := Nat.div_eq_of_lt (by omega)
    rw [hsum, Nat.mul_add_div hto, hnone, Nat.add_zero]
  · have hsum : n + toBits - 1 = toBits * (n / toBits) + (toBits + (n % toBits - 1)) := by
      generalize toBits * (n / toBits) = whole at hdm ⊢
      omega
    have hnone : (n % toBits - 1) / toBits = 0 := Nat.div_eq_of_lt (by omega)
    rw [hsum, Nat.mul_add_div hto, Nat.add_div_left _ hto, hnone]

theorem convertBits_padded (hfrom : 0 < fromBits) (hfrom' : fromBits ≤ 31) (hto : 0 < toBits)
    (hdigits : ∀ d ∈ digits, d < 2 ^ fromBits) :
    convertBits (wordsOf digits) fromBits toBits true = .ok
      (digitsOf (2 ^ toBits) (wordCount toBits (fromBits * digits.length))
        (valueOf (2 ^ fromBits) digits * 2 ^
          (toBits * wordCount toBits (fromBits * digits.length) - fromBits * digits.length))) := by
  have hloop : ∃ b, (wordsOf digits).foldlM (Buffer.take fromBits toBits) ⟨0, 0, []⟩ = .ok b ∧
      Regroups fromBits toBits digits b := regroups_foldlM hto hfrom' hdigits
  obtain ⟨b, hb, h⟩ := hloop
  have hdm := Nat.div_add_mod (fromBits * digits.length) toBits
  rw [← h.bits] at hdm
  have hlt : b.bits < toBits := by
    rw [h.bits]
    exact Nat.mod_lt _ hto
  unfold convertBits
  rw [hb, ok_bind]
  show Except.ok (if 0 < b.bits then _ else _) = _
  rw [rest_of_acc h hfrom hto, h.ret, wordCount_eq hto, ← h.bits]
  congr 1
  by_cases hzero : b.bits = 0
  · have hnone : toBits * (fromBits * digits.length / toBits) - fromBits * digits.length = 0 := by
      omega
    rw [if_neg (by omega), if_pos hzero, hnone, hzero]
    simp
  · have hpadding : toBits * (fromBits * digits.length / toBits + 1) - fromBits * digits.length
        = toBits - b.bits := by
      rw [Nat.mul_add]
      omega
    have hpow : 2 ^ toBits = 2 ^ b.bits * 2 ^ (toBits - b.bits) := by
      rw [← pow_add]
      congr 1
      omega
    have hdiv : valueOf (2 ^ fromBits) digits * 2 ^ (toBits - b.bits) / 2 ^ toBits
        = valueOf (2 ^ fromBits) digits / 2 ^ b.bits := by
      rw [hpow, Nat.mul_div_mul_right _ _ (by positivity)]
    rw [if_pos (by omega), if_neg hzero, hpadding, digitsOf, hdiv]

theorem convertBits_unpadded (hfrom : 0 < fromBits) (hfrom' : fromBits ≤ 31) (hto : 0 < toBits)
    (hdigits : ∀ d ∈ digits, d < 2 ^ fromBits) (out : List ℕ) :
    convertBits (wordsOf digits) fromBits toBits false = .ok out ↔
      fromBits * digits.length % toBits < fromBits ∧
        2 ^ (fromBits * digits.length % toBits) ∣ valueOf (2 ^ fromBits) digits ∧
        out = digitsOf (2 ^ toBits) (fromBits * digits.length / toBits)
          (valueOf (2 ^ fromBits) digits / 2 ^ (fromBits * digits.length % toBits)) := by
  have hloop : ∃ b, (wordsOf digits).foldlM (Buffer.take fromBits toBits) ⟨0, 0, []⟩ = .ok b ∧
      Regroups fromBits toBits digits b := regroups_foldlM hto hfrom' hdigits
  obtain ⟨b, hb, h⟩ := hloop
  have hlt : b.bits < toBits := by
    rw [h.bits]
    exact Nat.mod_lt _ hto
  have hrest : (b.acc <<< (toBits - b.bits)) &&& maxv toBits ≠ 0 ↔
      ¬ 2 ^ b.bits ∣ valueOf (2 ^ fromBits) digits := by
    have hpow : 2 ^ toBits = 2 ^ b.bits * 2 ^ (toBits - b.bits) := by
      rw [← pow_add]
      congr 1
      omega
    rw [rest_of_acc h hfrom hto, hpow, Nat.mul_mod_mul_right, Nat.dvd_iff_mod_eq_zero]
    simp
  unfold convertBits
  rw [hb, ok_bind, ← h.bits, ← h.ret]
  simp only [Bool.false_eq_true, if_false, hrest]
  constructor
  · intro hout
    split_ifs at hout with hbad
    rw [not_or, not_le, not_not] at hbad
    exact ⟨hbad.1, hbad.2, (Except.ok.inj hout).symm⟩
  · rintro ⟨hshort, hzeros, rfl⟩
    rw [if_neg]
    · rfl
    · rintro (hlong | hnonzero)
      · omega
      · exact hnonzero hzeros

end Regroup

/-! ### Bytes and words -/

theorem padding_of_bytes (m : ℕ) : ∃ k p, wordCount 5 (8 * m) = k ∧ 5 * k = 8 * m + p ∧ p < 5 := by
  refine ⟨wordCount 5 (8 * m), 5 * wordCount 5 (8 * m) - 8 * m, rfl, ?_, ?_⟩
  · unfold wordCount
    omega
  · unfold wordCount
    omega

theorem toNat_ofNat_bytes (h : ∀ d ∈ digits, d < 2 ^ 8) :
    (digits.map UInt8.ofNat).map UInt8.toNat = digits := by
  have hplain : ∀ d ∈ digits, (UInt8.toNat ∘ UInt8.ofNat) d = id d := by
    intro d hd
    exact UInt8.toNat_ofNat_of_lt (h d hd)
  rw [List.map_map, List.map_congr_left hplain, List.map_id]

/-- The words of some bytes give the bytes back; and words are read as bytes just when they are the
words of some. -/
theorem lnurl_regrouping :
    (∀ bytes : List UInt8, ∃ words,
      convertBits (wordsOf (bytes.map UInt8.toNat)) 8 5 true = .ok words ∧
        convertBits (wordsOf words) 5 8 false = .ok (bytes.map UInt8.toNat)) ∧
    ∀ words : List (Fin 32),
      (∃ bytes, convertBits (wordsOf (words.map Fin.val)) 5 8 false = .ok bytes) ↔
        ∃ bytes : List UInt8,
          convertBits (wordsOf (bytes.map UInt8.toNat)) 8 5 true = .ok (words.map Fin.val) := by
  have hback (bytes : List UInt8) : ∃ words,
      convertBits (wordsOf (bytes.map UInt8.toNat)) 8 5 true = .ok words ∧
        convertBits (wordsOf words) 5 8 false = .ok (bytes.map UInt8.toNat) := by
    have hbytes : ∀ d ∈ bytes.map UInt8.toNat, d < 2 ^ 8 := by
      intro d hd
      obtain ⟨b, -, rfl⟩ := List.mem_map.mp hd
      exact b.toNat_lt
    have hvalue := valueOf_lt hbytes
    rw [← pow_mul] at hvalue
    obtain ⟨k, p, hk, hlength, hp⟩ := padding_of_bytes (bytes.map UInt8.toNat).length
    have hdown : 5 * k - 8 * (bytes.map UInt8.toNat).length = p := by omega
    refine ⟨_, convertBits_padded (by omega) (by omega) (by omega) hbytes, ?_⟩
    rw [hk, hdown]
    -- The padded number still fits its words.
    have hfits : valueOf (2 ^ 8) (bytes.map UInt8.toNat) * 2 ^ p < (2 ^ 5) ^ k := by
      rw [← pow_mul, hlength, pow_add]
      exact Nat.mul_lt_mul_of_pos_right hvalue (by positivity)
    have hread : valueOf (2 ^ 5)
        (digitsOf (2 ^ 5) k (valueOf (2 ^ 8) (bytes.map UInt8.toNat) * 2 ^ p))
        = valueOf (2 ^ 8) (bytes.map UInt8.toNat) * 2 ^ p := by
      rw [valueOf_digitsOf, Nat.mod_eq_of_lt hfits]
    have hmod : 5 * k % 8 = p := by omega
    have hdiv : 5 * k / 8 = (bytes.map UInt8.toNat).length := by omega
    rw [convertBits_unpadded (by omega) (by omega) (by omega)
      fun d hd => lt_of_mem_digitsOf (by norm_num) hd]
    rw [length_digitsOf, hread, hmod, hdiv]
    refine ⟨hp, Nat.dvd_mul_left _ _, ?_⟩
    rw [Nat.mul_div_cancel _ (by positivity), digitsOf_valueOf hbytes]
  refine ⟨hback, fun words => ⟨?_, ?_⟩⟩
  · rintro ⟨out, hout⟩
    have hwords : ∀ d ∈ words.map Fin.val, d < 2 ^ 5 := by
      intro d hd
      obtain ⟨w, -, rfl⟩ := List.mem_map.mp hd
      exact w.isLt
    obtain ⟨hshort, hzeros, rfl⟩ :=
      (convertBits_unpadded (by omega) (by omega) (by omega) hwords out).mp hout
    have hvalue := valueOf_lt hwords
    rw [← pow_mul] at hvalue
    have hlength : 5 * (words.map Fin.val).length
        = 8 * (5 * (words.map Fin.val).length / 8) + 5 * (words.map Fin.val).length % 8 := by omega
    have hcount : wordCount 5 (8 * (5 * (words.map Fin.val).length / 8))
        = (words.map Fin.val).length := by
      unfold wordCount
      omega
    -- The number without the zeros fits the bytes.
    have hfits : valueOf (2 ^ 5) (words.map Fin.val) / 2 ^ (5 * (words.map Fin.val).length % 8)
        < (2 ^ 8) ^ (5 * (words.map Fin.val).length / 8) := by
      rw [Nat.div_lt_iff_lt_mul (by positivity), ← pow_mul, ← pow_add, ← hlength]
      exact hvalue
    have hread := @valueOf_digitsOf (2 ^ 8) (5 * (words.map Fin.val).length / 8)
      (valueOf (2 ^ 5) (words.map Fin.val) / 2 ^ (5 * (words.map Fin.val).length % 8))
    rw [Nat.mod_eq_of_lt hfits] at hread
    have hbytes : ∀ d ∈ digitsOf (2 ^ 8) (5 * (words.map Fin.val).length / 8)
        (valueOf (2 ^ 5) (words.map Fin.val) / 2 ^ (5 * (words.map Fin.val).length % 8)),
        d < 2 ^ 8 := fun d hd => lt_of_mem_digitsOf (by norm_num) hd
    have hdown : 5 * (words.map Fin.val).length - 8 * (5 * (words.map Fin.val).length / 8)
        = 5 * (words.map Fin.val).length % 8 := by omega
    refine ⟨(digitsOf (2 ^ 8) (5 * (words.map Fin.val).length / 8)
      (valueOf (2 ^ 5) (words.map Fin.val) / 2 ^ (5 * (words.map Fin.val).length % 8))).map
        UInt8.ofNat, ?_⟩
    rw [toNat_ofNat_bytes hbytes, convertBits_padded (by omega) (by omega) (by omega) hbytes,
      length_digitsOf, hcount, hread, hdown, Nat.div_mul_cancel hzeros, digitsOf_valueOf hwords]
  · rintro ⟨bytes, hbytes⟩
    obtain ⟨words', hwords', hread⟩ := hback bytes
    rw [hbytes] at hwords'
    obtain rfl := Except.ok.inj hwords'
    exact ⟨_, hread⟩

example : convertBits [255, 0] 8 5 true = .ok [31, 28, 0, 0] := by decide

end ChamaEscrow.Lnurl
