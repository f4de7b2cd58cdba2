import Mathlib.Data.List.Basic
import Mathlib.Tactic.Common

/-!
# Threshold scripts that count signatures

The tapscript `<k₁> CHECKSIG <k₂> CHECKSIGADD … <kₙ> CHECKSIGADD <m> NUMEQUAL`.  Each key pops one
item off the stack: an empty item counts nothing, a signature that verifies counts one, any other
item makes the script fail.  At the end the count must be the threshold, and the stack empty.

A witness is pushed in order, so that its last item is the first to be checked: a witness that holds
one slot for each key has to hold them in reverse (`acceptsSigs_reverse_iff`).
-/

namespace Library

variable {κ σ : Type*} (verify : κ → σ → Bool)

/-- The count and the stack that the keys leave, the stack given top first; `none` for the empty
item. -/
def countSigs : List κ → List (Option σ) → ℕ → Option (ℕ × List (Option σ))
  | [], stack, n => some (n, stack)
  | _ :: _, [], _ => none
  | _ :: keys, none :: stack, n => countSigs keys stack n
  | k :: keys, some sig :: stack, n =>
    if verify k sig then countSigs keys stack (n + 1) else none

def acceptsSigs (threshold : ℕ) (keys : List κ) (witness : List (Option σ)) : Prop :=
  countSigs verify keys witness.reverse 0 = some (threshold, [])

def SlotsVerify (keys : List κ) (slots : List (Option σ)) : Prop :=
  ∀ k sig, (k, some sig) ∈ keys.zip slots → verify k sig = true

variable {verify} {keys : List κ} {slots : List (Option σ)} {n m : ℕ}

theorem countSigs_eq_some_iff (h : slots.length = keys.length) :
    countSigs verify keys slots n = some (m, []) ↔
      SlotsVerify verify keys slots ∧ m = n + (slots.filter Option.isSome).length := by
  induction keys generalizing slots n with
  | nil =>
    obtain rfl := List.length_eq_zero_iff.mp h
    simp only [countSigs, SlotsVerify, Option.some.injEq, Prod.mk.injEq, and_true,
      List.zip_nil_left, List.not_mem_nil, false_implies, implies_true, true_and, List.filter_nil, List.length_nil,
      Nat.add_zero]
    exact eq_comm
  | cons k keys ih =>
    cases slots with
    | nil => cases h
    | cons slot slots =>
      have hlength : slots.length = keys.length := Nat.succ.inj h
      cases slot with
      | none =>
        rw [countSigs, ih hlength]
        simp [SlotsVerify]
      | some sig =>
        rw [countSigs]
        by_cases hverify : verify k sig = true
        · rw [if_pos hverify, ih hlength]
          have hslots : SlotsVerify verify (k :: keys) (some sig :: slots) ↔
              SlotsVerify verify keys slots := by
            simp only [SlotsVerify, List.zip_cons_cons, List.mem_cons, Prod.mk.injEq,
              Option.some.injEq]
            constructor
            · exact fun hall k' sig' hmem => hall k' sig' (Or.inr hmem)
            · rintro hall k' sig' (⟨rfl, rfl⟩ | hmem)
              · exact hverify
              · exact hall k' sig' hmem
          have hcount : ((some sig :: slots).filter Option.isSome).length =
              (slots.filter Option.isSome).length + 1 := rfl
          rw [hslots, hcount, Nat.add_right_comm, Nat.add_assoc n]
        · rw [if_neg hverify]
          simp only [reduceCtorEq, false_iff, not_and]
          exact fun hall => absurd (hall k sig (by simp)) hverify

/-- One slot for each key, pushed in reverse: the script accepts just when the signatures are valid
for the keys of their slots and there are as many as the threshold. -/
theorem acceptsSigs_reverse_iff (h : slots.length = keys.length) :
    acceptsSigs verify m keys slots.reverse ↔
      SlotsVerify verify keys slots ∧ (slots.filter Option.isSome).length = m := by
  rw [acceptsSigs, List.reverse_reverse, countSigs_eq_some_iff h, Nat.zero_add, eq_comm (a := m)]

end Library
