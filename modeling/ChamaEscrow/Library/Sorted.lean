import Mathlib.Data.List.Sort

/-!
# Sorted lists

A list sorted by a linear order is determined by what it holds, and its first element with a
property by the elements alone: how often they occur and in which order they came does not matter.
The order is a relation with three laws, so that it can be an order of the members alone.

* `sorted_inj`: rearranged lists are sorted to one list.
* `sorted_find?_congr`: lists of the same elements have the same first element with a property.
* `subset_of_nodup_of_length`: a list without repetitions that fills another one.
-/

namespace Library

variable {α : Type*} {r : α → α → Prop}

/-- The first element with a property comes before all others that have it. -/
theorem before_of_find? {p : α → Bool} {l : List α} (hl : l.Pairwise r) {a b : α}
    (ha : l.find? p = some a) (hb : b ∈ l) (hp : p b = true) : a = b ∨ r a b := by
  induction l with
  | nil => cases ha
  | cons c rest ih =>
    obtain ⟨hfirst, hrest⟩ := List.pairwise_cons.mp hl
    rw [List.find?_cons] at ha
    split at ha
    · obtain rfl := Option.some.inj ha
      rcases List.mem_cons.mp hb with rfl | hb
      · exact Or.inl rfl
      · exact Or.inr (hfirst b hb)
    · rename_i hc
      rcases List.mem_cons.mp hb with rfl | hb
      · simp [hp] at hc
      · exact ih hrest ha hb

section

variable [DecidableRel r]

theorem sorted_inj (total : ∀ a b, r a b ∨ r b a) (trans : ∀ a b c, r a b → r b c → r a c)
    (antisymm : ∀ a b, r a b → r b a → a = b) {l l' : List α} (h : l.Perm l') :
    l.insertionSort r = l'.insertionSort r := by
  have : Std.Total r := ⟨total⟩
  have : IsTrans α r := ⟨trans⟩
  have hperm := ((List.perm_insertionSort r l).trans h).trans (List.perm_insertionSort r l').symm
  exact hperm.eq_of_pairwise (fun a b _ _ => antisymm a b) (List.pairwise_insertionSort r l)
    (List.pairwise_insertionSort r l')

theorem sorted_find?_congr (total : ∀ a b, r a b ∨ r b a)
    (trans : ∀ a b c, r a b → r b c → r a c) (antisymm : ∀ a b, r a b → r b a → a = b)
    {l l' : List α} (h : ∀ a, a ∈ l ↔ a ∈ l') (p : α → Bool) :
    (l.insertionSort r).find? p = (l'.insertionSort r).find? p := by
  have : Std.Total r := ⟨total⟩
  have : IsTrans α r := ⟨trans⟩
  have hmem (a : α) : a ∈ l.insertionSort r ↔ a ∈ l'.insertionSort r := by
    rw [List.mem_insertionSort, List.mem_insertionSort]
    exact h a
  have hsorted (l : List α) := List.pairwise_insertionSort r l
  cases ha : (l.insertionSort r).find? p with
  | none =>
    symm
    rw [List.find?_eq_none] at ha ⊢
    exact fun a hmem' => ha a ((hmem a).mpr hmem')
  | some a =>
    cases hb : (l'.insertionSort r).find? p with
    | none =>
      have hin := (hmem a).mp (List.mem_of_find?_eq_some ha)
      exact absurd (List.find?_some ha) (List.find?_eq_none.mp hb a hin)
    | some b =>
      have hab := before_of_find? (hsorted l) ha ((hmem b).mpr (List.mem_of_find?_eq_some hb))
        (List.find?_some hb)
      have hba := before_of_find? (hsorted l') hb ((hmem a).mp (List.mem_of_find?_eq_some ha))
        (List.find?_some ha)
      rcases hab with rfl | hab
      · rfl
      · rcases hba with rfl | hba
        · rfl
        · rw [antisymm a b hab hba]

end

/-- A list without repetitions that holds nothing but the members of another one, and is as long,
holds all of them. -/
theorem subset_of_nodup_of_length {l l' : List α} (hl : l.Nodup) (hsub : l ⊆ l')
    (hlength : l'.length ≤ l.length) : l' ⊆ l :=
  ((List.subperm_of_subset hl hsub).perm_of_length_le hlength).symm.subset

end Library
