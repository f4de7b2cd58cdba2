import Mathlib.Data.List.Basic

/-!
# Joined lists

What can be read off the list that joins several lists with a separator.  The separator may occur
inside the parts: then the joined list does not tell where they end, but it does as soon as their
lengths are known.

* `intercalate_inj_of_lengths`: parts of known lengths can be read off.
* `intercalate_inj_of_notMem`: so can parts without the separator.
* `append_cons_inj_of_notMem`, `append_cons_inj_of_notMem_right`: of two parts, one without the
  separator is enough.
-/

namespace Library

variable {α : Type*}

variable {l l' : List (List α)}

theorem intercalate_inj_of_lengths {sep : List α}
    (hlengths : l.map List.length = l'.map List.length)
    (h : sep.intercalate l = sep.intercalate l') : l = l' := by
  induction l generalizing l' with
  | nil =>
    rw [List.map_nil, eq_comm, List.map_eq_nil_iff] at hlengths
    exact hlengths.symm
  | cons x rest ih =>
    cases l' with
    | nil => cases hlengths
    | cons y rest' =>
      obtain ⟨hlength, hrest⟩ := List.cons.inj hlengths
      cases rest with
      | nil =>
        rw [List.map_nil, eq_comm, List.map_eq_nil_iff] at hrest
        subst hrest
        simpa using h
      | cons z zs =>
        cases rest' with
        | nil => cases hrest
        | cons w ws =>
          rw [List.intercalate_cons_cons, List.intercalate_cons_cons, List.append_assoc,
            List.append_assoc] at h
          obtain ⟨rfl, htail⟩ := List.append_inj h hlength
          rw [ih hrest (List.append_cancel_left htail)]

theorem intercalate_inj_of_notMem [DecidableEq α] {sep : α}
    (hl : ∀ x ∈ l, sep ∉ x) (hl' : ∀ x ∈ l', sep ∉ x) (hne : l ≠ []) (hne' : l' ≠ [])
    (h : [sep].intercalate l = [sep].intercalate l') : l = l' := by
  rw [← List.splitOn_intercalate sep hl hne, h, List.splitOn_intercalate sep hl' hne']

theorem append_cons_inj_of_notMem {a : α} {d d' l l' : List α} (hd : a ∉ d) (hd' : a ∉ d')
    (h : d ++ a :: l = d' ++ a :: l') : d = d' ∧ l = l' := by
  induction d generalizing d' with
  | nil =>
    cases d' with
    | nil => exact ⟨rfl, (List.cons.inj h).2⟩
    | cons b rest' => exact absurd ((List.cons.inj h).1 ▸ List.mem_cons_self) hd'
  | cons b rest ih =>
    cases d' with
    | nil => exact absurd ((List.cons.inj h).1 ▸ List.mem_cons_self) hd
    | cons b' rest' =>
      obtain ⟨rfl, htail⟩ := List.cons.inj h
      obtain ⟨rfl, hl⟩ := ih (fun hmem => hd (List.mem_cons_of_mem b hmem))
        (fun hmem => hd' (List.mem_cons_of_mem b hmem)) htail
      exact ⟨rfl, hl⟩

theorem append_cons_inj_of_notMem_right {a : α} {l l' d d' : List α} (hd : a ∉ d) (hd' : a ∉ d')
    (h : l ++ a :: d = l' ++ a :: d') : l = l' ∧ d = d' := by
  have hreverse := congrArg List.reverse h
  simp only [List.reverse_append, List.reverse_cons, List.append_assoc, List.singleton_append]
    at hreverse
  obtain ⟨hright, hleft⟩ := append_cons_inj_of_notMem (by simpa using hd) (by simpa using hd')
    hreverse
  exact ⟨List.reverse_inj.mp hleft, List.reverse_inj.mp hright⟩

end Library
