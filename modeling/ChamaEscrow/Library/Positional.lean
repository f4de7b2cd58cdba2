import Mathlib.Algebra.Order.Ring.Nat
import Mathlib.Data.List.Induction
import Mathlib.Tactic.Ring

/-!
# Numerals of a fixed length

A number is written with a fixed number of digits in some base, the highest first, and read again.

* `valueOf_digitsOf`: what is read is the number, modulo what the digits can hold.
* `digitsOf_valueOf`: digits are the numeral of what they denote, so the numeral is the only one of
  its length.
-/

namespace Library

variable {base : ℕ}

/-- The `k` lowest digits of a number, the highest of them first. -/
def digitsOf (base : ℕ) : (k n : ℕ) → List ℕ
  | 0, _ => []
  | k + 1, n => digitsOf base k (n / base) ++ [n % base]

def valueOf (base : ℕ) (digits : List ℕ) : ℕ := digits.foldl (fun n d => n * base + d) 0

@[simp]
theorem length_digitsOf (k n : ℕ) : (digitsOf base k n).length = k := by
  induction k generalizing n with
  | zero => rfl
  | succ k ih => simp [digitsOf, ih]

theorem lt_of_mem_digitsOf (hbase : 0 < base) {k n d : ℕ} (hd : d ∈ digitsOf base k n) :
    d < base := by
  induction k generalizing n with
  | zero => cases hd
  | succ k ih =>
    rcases List.mem_append.mp hd with hhigh | hlow
    · exact ih hhigh
    · rw [List.mem_singleton.mp hlow]
      exact Nat.mod_lt n hbase

@[simp]
theorem valueOf_nil : valueOf base [] = 0 := rfl

@[simp]
theorem valueOf_concat (digits : List ℕ) (d : ℕ) :
    valueOf base (digits ++ [d]) = valueOf base digits * base + d := by
  simp [valueOf]

theorem valueOf_digitsOf (k n : ℕ) : valueOf base (digitsOf base k n) = n % base ^ k := by
  induction k generalizing n with
  | zero => rw [digitsOf, valueOf_nil, pow_zero, Nat.mod_one]
  | succ k ih =>
    rw [digitsOf, valueOf_concat, ih, pow_succ']
    have hsplit := Nat.mod_mul (x := n) (a := base) (b := base ^ k)
    rw [hsplit]
    ring

theorem valueOf_lt {digits : List ℕ} (h : ∀ d ∈ digits, d < base) :
    valueOf base digits < base ^ digits.length := by
  induction digits using List.reverseRecOn with
  | nil => simp
  | append_singleton digits d ih =>
    have hd := h d (by simp)
    have hvalue := ih fun d' hd' => h d' (List.mem_append_left _ hd')
    rw [valueOf_concat, List.length_append, List.length_singleton, pow_succ]
    calc valueOf base digits * base + d < valueOf base digits * base + base := by omega
      _ = (valueOf base digits + 1) * base := by ring
      _ ≤ base ^ digits.length * base := Nat.mul_le_mul_right base hvalue

theorem digitsOf_valueOf {digits : List ℕ} (h : ∀ d ∈ digits, d < base) :
    digitsOf base digits.length (valueOf base digits) = digits := by
  induction digits using List.reverseRecOn with
  | nil => rfl
  | append_singleton digits d ih =>
    have hd := h d (by simp)
    have hbase : 0 < base := by omega
    rw [List.length_append, List.length_singleton, digitsOf, valueOf_concat, Nat.add_comm,
      Nat.add_mul_div_right _ _ hbase, Nat.div_eq_of_lt hd, Nat.zero_add,
      Nat.add_mul_mod_self_right, Nat.mod_eq_of_lt hd,
      ih fun d' hd' => h d' (List.mem_append_left _ hd')]

end Library
