import ChamaEscrow.Library.OrderedMap

/-!
# Grouping by a key

A list is grouped by a key when each element is appended to the group of its key, and a key gets its
place when its first element comes.  `get_group` is what a key has in the end: the elements that
have it, in their order.
-/

namespace Library

variable {κ α : Type*} [DecidableEq κ] (key : α → κ)

namespace OrderedMap

/-- The groups with one more element. -/
def push (m : OrderedMap κ (List α)) (a : α) : OrderedMap κ (List α) :=
  m.set (key a) ((m.get (key a)).getD [] ++ [a])

def group (l : List α) : OrderedMap κ (List α) := l.foldl (push key) empty

variable {key}

theorem getD_push (m : OrderedMap κ (List α)) (a : α) (k : κ) :
    ((m.push key a).get k).getD [] = (m.get k).getD [] ++ [a].filter fun b => key b = k := by
  rw [push, get_set]
  by_cases hk : k = key a
  · subst hk
    simp
  · have hne : key a ≠ k := fun h => hk h.symm
    simp [hk, hne]

theorem getD_foldl_push (m : OrderedMap κ (List α)) (l : List α) (k : κ) :
    ((l.foldl (push key) m).get k).getD [] = (m.get k).getD [] ++ l.filter fun b => key b = k := by
  induction l generalizing m with
  | nil => simp
  | cons a l ih =>
    rw [List.foldl_cons, ih, getD_push, List.append_assoc, ← List.filter_append,
      List.singleton_append]

theorem ne_nil_of_get_foldl_push {m : OrderedMap κ (List α)}
    (hm : ∀ k g, m.get k = some g → g ≠ []) (l : List α) :
    ∀ k g, (l.foldl (push key) m).get k = some g → g ≠ [] := by
  induction l generalizing m with
  | nil => exact hm
  | cons a l ih =>
    refine ih fun k g hg => ?_
    rw [push, get_set] at hg
    split_ifs at hg with hk
    · obtain rfl := Option.some.inj hg
      exact List.append_ne_nil_of_right_ne_nil _ (List.cons_ne_nil a [])
    · exact hm k g hg

theorem ne_nil_of_get_group {l : List α} {k : κ} {g : List α} (h : (group key l).get k = some g) :
    g ≠ [] := by
  refine ne_nil_of_get_foldl_push (fun k g hg => ?_) l k g h
  rw [get_empty] at hg
  cases hg

theorem get_group {l : List α} {k : κ} {g : List α} :
    (group key l).get k = some g ↔ g = (l.filter fun a => key a = k) ∧ g ≠ [] := by
  have hgetD : ((group key l).get k).getD [] = l.filter fun a => key a = k := by
    rw [group, getD_foldl_push, get_empty]
    rfl
  constructor
  · intro h
    rw [h, Option.getD_some] at hgetD
    exact ⟨hgetD, ne_nil_of_get_group h⟩
  · rintro ⟨rfl, hne⟩
    cases h : (group key l).get k with
    | none =>
      rw [h, Option.getD_none] at hgetD
      exact absurd hgetD.symm hne
    | some g =>
      rw [h, Option.getD_some] at hgetD
      rw [hgetD]

end OrderedMap

end Library
