import Mathlib.Data.List.Basic

/-!
# The first match in a growing list

A search takes the first element of a list that passes a test.  The list grows at its end, and more
elements come to pass: the search then finds the same element or an earlier one, which did not pass
before.
-/

namespace Library

variable {α : Type*} {p p' : α → Bool} {l : List α} {a : α}

theorem mem_or_mem_of_splits {b : α} {before after before' after' : List α}
    (h : before ++ a :: after = before' ++ b :: after') : b ∈ before ∨ a ∈ before' ++ [b] := by
  induction before generalizing before' with
  | nil =>
    right
    cases before' with
    | nil => exact (List.cons.inj h).1 ▸ List.mem_cons_self
    | cons c rest => exact (List.cons.inj h).1 ▸ List.mem_cons_self
  | cons c rest ih =>
    cases before' with
    | nil =>
      left
      exact (List.cons.inj h).1 ▸ List.mem_cons_self
    | cons d rest' =>
      rcases ih (List.cons.inj h).2 with hb | ha
      · exact Or.inl (List.mem_cons_of_mem c hb)
      · exact Or.inr (List.mem_cons_of_mem d ha)

/-- The first match stays, or an earlier element overtakes it that no match stood before. -/
theorem find?_append_cases (hmono : ∀ b, p b = true → p' b = true) (h : l.find? p = some a)
    (l' : List α) :
    ((l ++ l').find? p' = some a ∧
      ∀ before b after, l = before ++ b :: after → (∀ c ∈ before ++ [b], p c = false) →
        p' b = false) ∨
    ∃ before b after, (l ++ l').find? p' = some b ∧ p' b = true ∧ l = before ++ b :: after ∧
      ∀ c ∈ before ++ [b], p c = false := by
  obtain ⟨ha, before, after, rfl, hbefore⟩ := List.find?_eq_some_iff_append.mp h
  cases hearlier : before.find? p' with
  | none =>
    left
    have hnone := List.find?_eq_none.mp hearlier
    constructor
    · rw [List.append_assoc, List.find?_append, hearlier, Option.none_or, List.cons_append,
        List.find?_cons_of_pos (hmono a ha)]
    · intro before' b after' hsplit hunmatched
      -- what stands up to `b` has no match, so `b` stands before `a`
      have hb : b ∈ before := by
        rcases mem_or_mem_of_splits hsplit with hb | hmem
        · exact hb
        · rw [hunmatched a hmem] at ha
          cases ha
      simpa using hnone b hb
  | some b =>
    right
    obtain ⟨hb, left, right, hsplit, -⟩ := List.find?_eq_some_iff_append.mp hearlier
    refine ⟨left, b, right ++ a :: after, ?_, hb, ?_, ?_⟩
    · rw [List.append_assoc, List.find?_append, hearlier, Option.some_or]
    · rw [hsplit, List.append_assoc, List.cons_append]
    · intro c hc
      have hmem : c ∈ before := by
        rw [hsplit]
        rcases List.mem_append.mp hc with hc | hc
        · exact List.mem_append_left _ hc
        · rw [List.mem_singleton.mp hc]
          exact List.mem_append_right _ List.mem_cons_self
      simpa using hbefore c hmem

end Library
