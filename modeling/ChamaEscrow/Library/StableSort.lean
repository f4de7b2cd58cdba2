import Mathlib.Algebra.Order.Group.Nat
import Mathlib.Data.List.Nodup
import Mathlib.Data.List.Perm.Basic

/-!
# Sorting with a comparator that may be inconsistent

What a sorting function of a language is held to: its result is a rearrangement, and where the
comparator orders the list it is the stable one.  Where the comparator has a cycle the result is up
to the function.  `take_sort_perm_iff` says when the first elements of the result depend on the
elements of the list alone, whatever function sorts them (`OrderFree`).
-/

namespace Library

variable {α : Type}

/-- The comparator orders the elements of the list. -/
structure ConsistentOn (le : α → α → Bool) (l : List α) : Prop where
  total : ∀ a ∈ l, ∀ b ∈ l, le a b = true ∨ le b a = true
  trans : ∀ a ∈ l, ∀ b ∈ l, ∀ c ∈ l, le a b = true → le b c = true → le a c = true

structure StableSort where
  sort : ∀ {α : Type}, (α → α → Bool) → List α → List α
  perm : ∀ {α : Type} (le : α → α → Bool) (l : List α), (sort le l).Perm l
  sort_eq : ∀ {α : Type} {le : α → α → Bool} {l : List α}, ConsistentOn le l →
    sort le l = l.mergeSort le

/-- The first `n` elements are settled by the comparator: it orders the list, and any two elements
that it does not tell apart come after `n` others. -/
def OrderFree (le : α → α → Bool) (l : List α) (n : ℕ) : Prop :=
  n = 0 ∨ (ConsistentOn le l ∧
    ∀ a ∈ l, ∀ b ∈ l, a ≠ b → le a b = true → le b a = true → n ≤ l.countP fun c => !le a c)

theorem ConsistentOn.perm {le : α → α → Bool} {l l' : List α} (h : ConsistentOn le l)
    (hperm : l'.Perm l) : ConsistentOn le l' where
  total a ha b hb := h.total a (hperm.subset ha) b (hperm.subset hb)
  trans a ha b hb c hc :=
    h.trans a (hperm.subset ha) b (hperm.subset hb) c (hperm.subset hc)

/-! ### An order on the whole type -/

section Order

variable {le : α → α → Bool} (total : ∀ a b, (le a b || le b a) = true)
  (trans : ∀ a b c, le a b = true → le b c = true → le a c = true)

theorem countP_before_le {s : List α} (hs : s.Pairwise fun a b => le a b = true)
    (hrefl : ∀ a, le a a = true) {i : ℕ} (hi : i < s.length) :
    s.countP (fun c => !le s[i] c) ≤ i := by
  have hdrop : (s.drop i).countP (fun c => !le s[i] c) = 0 := by
    rw [List.countP_eq_zero]
    intro c hc
    rw [List.drop_eq_getElem_cons hi] at hc
    have hle : le s[i] c = true := by
      rcases List.mem_cons.mp hc with rfl | hmem
      · exact hrefl _
      · have htail := hs.sublist (List.drop_sublist i s)
        rw [List.drop_eq_getElem_cons hi] at htail
        exact List.rel_of_pairwise_cons htail hmem
    simp [hle]
  have hsplit := congrArg (List.countP fun c => !le s[i] c) (List.take_append_drop i s)
  rw [List.countP_append, hdrop] at hsplit
  have htake := List.countP_le_length (p := fun c => !le s[i] c) (l := s.take i)
  rw [List.length_take] at htake
  omega

include trans in
/-- Up to an element that comes strictly before `x`, a sorted list has only such elements. -/
theorem lt_countP_before {t : List α} (ht : t.Pairwise fun a b => le a b = true)
    (hrefl : ∀ a, le a a = true) {i : ℕ} (hi : i < t.length) {x : α} (hx : le x t[i] ≠ true) :
    i < t.countP fun c => !le x c := by
  have htake : (t.take (i + 1)).countP (fun c => !le x c) = i + 1 := by
    have hlength : (t.take (i + 1)).length = i + 1 := by
      rw [List.length_take]
      omega
    conv_rhs => rw [← hlength]
    apply List.countP_eq_length.mpr
    intro c hc
    obtain ⟨j, hj, rfl⟩ := List.mem_take_iff_getElem.mp hc
    have hle : le t[j] t[i] = true := by
      rcases Nat.lt_or_ge j i with hlt | hge
      · exact List.pairwise_iff_getElem.mp ht j i _ hi hlt
      · obtain rfl : j = i := by omega
        exact hrefl _
    have hnot : le x t[j] ≠ true := fun h => hx (trans _ _ _ h hle)
    simpa using hnot
  have hsplit := congrArg (List.countP fun c => !le x c) (List.take_append_drop (i + 1) t)
  rw [List.countP_append, htake] at hsplit
  omega

include total trans in
theorem le_getElem_of_perm {s t : List α} (hs : s.Pairwise fun a b => le a b = true)
    (ht : t.Pairwise fun a b => le a b = true) (hperm : s.Perm t) {i : ℕ} (hi : i < s.length)
    (hi' : i < t.length) : le s[i] t[i] = true := by
  have hrefl : ∀ a, le a a = true := fun a => by simpa using total a a
  by_contra hnot
  have hlow := countP_before_le hs hrefl hi
  have hhigh := lt_countP_before trans ht hrefl hi' hnot
  rw [hperm.countP_eq] at hlow
  omega

include total trans in
theorem getElem?_mergeSort_cons (a : α) (l : List α) :
    ((a :: l).mergeSort le)[(a :: l).countP fun c => !le a c]? = some a := by
  have hrefl : le a a = true := by simpa using total a a
  obtain ⟨l₁, l₂, hsorted, hrest, hbefore⟩ := List.mergeSort_cons trans total a l
  have hpair := List.pairwise_mergeSort trans total (a :: l)
  have hcount : (a :: l).countP (fun c => !le a c) = l₁.length := by
    rw [← (List.mergeSort_perm (a :: l) le).countP_eq, hsorted, List.countP_append,
      List.countP_eq_length.mpr hbefore, List.countP_eq_zero.mpr, Nat.add_zero]
    intro c hc
    rw [hsorted] at hpair
    have htail := (List.pairwise_append.mp hpair).2.1
    rcases List.mem_cons.mp hc with rfl | hmem
    · simp [hrefl]
    · simp [List.rel_of_pairwise_cons htail hmem]
  rw [hcount, hsorted, List.getElem?_append_right le_rfl, Nat.sub_self]
  rfl

end Order

/-! ### Elements that the comparator orders -/

theorem ConsistentOn.exists_order {le : α → α → Bool} {l : List α} (h : ConsistentOn le l) :
    ∃ le' : α → α → Bool, (∀ a b, (le' a b || le' b a) = true) ∧
      (∀ a b c, le' a b = true → le' b c = true → le' a c = true) ∧
      ∀ a ∈ l, ∀ b ∈ l, le a b = le' a b := by
  classical
  refine ⟨fun a b => decide (a ∉ l ∨ (b ∈ l ∧ le a b = true)), ?_, ?_, ?_⟩
  · intro a b
    simp only [Bool.or_eq_true, decide_eq_true_eq]
    by_cases ha : a ∈ l
    · by_cases hb : b ∈ l
      · rcases h.total a ha b hb with hab | hba
        · exact Or.inl (Or.inr ⟨hb, hab⟩)
        · exact Or.inr (Or.inr ⟨ha, hba⟩)
      · exact Or.inr (Or.inl hb)
    · exact Or.inl (Or.inl ha)
  · intro a b c hab hbc
    simp only [decide_eq_true_eq] at hab hbc ⊢
    by_cases ha : a ∈ l
    · obtain ⟨hb, hab⟩ := hab.resolve_left fun h => h ha
      obtain ⟨hc, hbc⟩ := hbc.resolve_left fun h => h hb
      exact Or.inr ⟨hc, h.trans a ha b hb c hc hab hbc⟩
    · exact Or.inl ha
  · intro a ha b hb
    simp [ha, hb]

theorem mergeSort_congr {le le' : α → α → Bool} {l : List α}
    (h : ∀ a ∈ l, ∀ b ∈ l, le a b = le' a b) : l.mergeSort le = l.mergeSort le' := by
  have hmap := List.map_mergeSort (f := id) h
  rwa [List.map_id, List.map_id] at hmap

section Take

variable {le : α → α → Bool} {l l' : List α} {n : ℕ}

theorem countP_congr_le {le' : α → α → Bool} (hle : ∀ a ∈ l, ∀ b ∈ l, le a b = le' a b) {a : α}
    (ha : a ∈ l) : l.countP (fun c => !le a c) = l.countP fun c => !le' a c := by
  apply List.countP_congr
  intro c hc
  rw [hle a ha c hc]

theorem OrderFree.take_mergeSort (h : OrderFree le l n) (hperm : l'.Perm l) :
    (l'.mergeSort le).take n = (l.mergeSort le).take n := by
  rcases h with rfl | ⟨hcons, hties⟩
  · rfl
  obtain ⟨le', total, trans, hle⟩ := hcons.exists_order
  have hle' : ∀ a ∈ l', ∀ b ∈ l', le a b = le' a b :=
    fun a ha b hb => hle a (hperm.subset ha) b (hperm.subset hb)
  rw [mergeSort_congr hle, mergeSort_congr hle']
  have hs := List.pairwise_mergeSort trans total l'
  have ht := List.pairwise_mergeSort trans total l
  have hst : (l'.mergeSort le').Perm (l.mergeSort le') :=
    (List.mergeSort_perm l' le').trans (hperm.trans (List.mergeSort_perm l le').symm)
  apply List.ext_getElem
  · rw [List.length_take, List.length_take, hst.length_eq]
  intro i hi hi'
  rw [List.length_take] at hi hi'
  rw [List.getElem_take, List.getElem_take]
  have his : i < (l'.mergeSort le').length := by omega
  have hit : i < (l.mergeSort le').length := by omega
  by_contra hne
  have hmem : (l'.mergeSort le')[i] ∈ l := hperm.subset (List.mem_mergeSort.mp (List.getElem_mem his))
  have hmem' : (l.mergeSort le')[i] ∈ l := List.mem_mergeSort.mp (List.getElem_mem hit)
  have hab := le_getElem_of_perm total trans hs ht hst his hit
  have hba := le_getElem_of_perm total trans ht hs hst.symm hit his
  -- Two elements at one place are told apart by nothing, so they come after the first `n`.
  have hlate := hties _ hmem _ hmem' hne (by rw [hle _ hmem _ hmem']; exact hab)
    (by rw [hle _ hmem' _ hmem]; exact hba)
  have hearly := countP_before_le hs (fun a => by simpa using total a a) his
  rw [((List.mergeSort_perm l' le').trans hperm).countP_eq, ← countP_congr_le hle hmem] at hearly
  omega

/-- The sorting function that leaves a list alone where the comparator has no order. -/
noncomputable def lazySort : StableSort where
  sort le l := open Classical in if ConsistentOn le l then l.mergeSort le else l
  perm le l := by
    split_ifs
    · exact List.mergeSort_perm l le
    · rfl
  sort_eq h := if_pos h

theorem consistentOn_of_length_le (htotal : ∀ a ∈ l, ∀ b ∈ l, le a b = true ∨ le b a = true)
    (h : l.length ≤ 1) : ConsistentOn le l := by
  refine ⟨htotal, fun a ha b hb c hc hab _ => ?_⟩
  have hone : ∀ x ∈ l, ∀ y ∈ l, x = y := by
    intro x hx y hy
    match l, h with
    | [z], _ => rw [List.mem_singleton.mp hx, List.mem_singleton.mp hy]
  rw [← hone b hb c hc]
  exact hab

theorem ConsistentOn.exists_perm_getElem? (h : ConsistentOn le l) {a : α} (ha : a ∈ l) :
    ∃ l' : List α, l'.Perm l ∧ (l'.mergeSort le)[l.countP fun c => !le a c]? = some a := by
  classical
  obtain ⟨le', total, trans, hle⟩ := h.exists_order
  have hperm : (a :: l.erase a).Perm l := (List.perm_cons_erase ha).symm
  have hle' : ∀ x ∈ a :: l.erase a, ∀ y ∈ a :: l.erase a, le x y = le' x y :=
    fun x hx y hy => hle x (hperm.subset hx) y (hperm.subset hy)
  refine ⟨a :: l.erase a, hperm, ?_⟩
  rw [mergeSort_congr hle', countP_congr_le hle ha, ← hperm.countP_eq]
  exact getElem?_mergeSort_cons total trans a _

theorem orderFree_of_lazySort (hnodup : l.Nodup)
    (htotal : ∀ a ∈ l, ∀ b ∈ l, le a b = true ∨ le b a = true)
    (h : ∀ l', l'.Perm l → (lazySort.sort le l').take n = (lazySort.sort le l).take n) :
    OrderFree le l n := by
  by_cases hn : n = 0
  · exact Or.inl hn
  obtain ⟨n, rfl⟩ := Nat.exists_eq_succ_of_ne_zero hn
  have hcons : ConsistentOn le l := by
    by_contra hnot
    match l, hnot, hnodup, h with
    | [], hnot, _, _ => exact hnot (consistentOn_of_length_le htotal (Nat.zero_le _))
    | [a], hnot, _, _ => exact hnot (consistentOn_of_length_le htotal le_rfl)
    | a :: b :: rest, hnot, hnodup, h =>
      have hswap : (b :: a :: rest).Perm (a :: b :: rest) := List.Perm.swap a b rest
      have hsame := h _ hswap
      have hnot' : ¬ ConsistentOn le (b :: a :: rest) := fun hc => hnot (hc.perm hswap.symm)
      simp only [lazySort, if_neg hnot, if_neg hnot', List.take_succ_cons, List.cons.injEq]
        at hsame
      exact (List.nodup_cons.mp hnodup).1 (by rw [hsame.1]; exact List.mem_cons_self)
  refine Or.inr ⟨hcons, fun a ha b hb hne hab hba => ?_⟩
  by_contra hlt
  -- Whichever of the two is first in the list comes first after sorting.
  obtain ⟨la, hla, hfirst⟩ := hcons.exists_perm_getElem? ha
  obtain ⟨lb, hlb, hother⟩ := hcons.exists_perm_getElem? hb
  have hplace : l.countP (fun c => !le b c) = l.countP fun c => !le a c := by
    apply List.countP_congr
    intro c hc
    have hiff : le b c = true ↔ le a c = true :=
      ⟨hcons.trans a ha b hb c hc hab, hcons.trans b hb a ha c hc hba⟩
    rw [Bool.eq_iff_iff.mpr hiff]
  have hsame : (la.mergeSort le).take (n + 1) = (lb.mergeSort le).take (n + 1) := by
    have hsort : ∀ l', l'.Perm l → lazySort.sort le l' = l'.mergeSort le :=
      fun l' hl' => lazySort.sort_eq (hcons.perm hl')
    rw [← hsort la hla, ← hsort lb hlb, h la hla, h lb hlb]
  have hat := congrArg (·[l.countP fun c => !le a c]?) hsame
  rw [List.getElem?_take_of_lt (not_le.mp hlt), List.getElem?_take_of_lt (not_le.mp hlt), hfirst,
    ← hplace, hother] at hat
  exact hne (Option.some.inj hat)

theorem take_sort_perm_iff (hnodup : l.Nodup)
    (htotal : ∀ a ∈ l, ∀ b ∈ l, le a b = true ∨ le b a = true) :
    (∀ (engine : StableSort) (l' : List α), l'.Perm l →
      (engine.sort le l').take n = (engine.sort le l).take n) ↔ OrderFree le l n := by
  constructor
  · exact fun h => orderFree_of_lazySort hnodup htotal (h lazySort)
  · intro h engine l' hperm
    by_cases hn : n = 0
    · rw [hn, List.take_zero, List.take_zero]
    have hcons := (h.resolve_left hn).1
    rw [engine.sort_eq hcons, engine.sort_eq (hcons.perm hperm)]
    exact h.take_mergeSort hperm

theorem exists_perm_filterMap {β : Type} {f : β → Option α} {inputs : List β} {l' : List α}
    (h : l'.Perm (inputs.filterMap f)) :
    ∃ inputs' : List β, inputs'.Perm inputs ∧ inputs'.filterMap f = l' := by
  induction inputs generalizing l' with
  | nil => exact ⟨[], List.Perm.refl _, h.eq_nil.symm⟩
  | cons b inputs ih =>
    cases hb : f b with
    | none =>
      rw [List.filterMap_cons_none hb] at h
      obtain ⟨inputs', hperm, rfl⟩ := ih h
      exact ⟨b :: inputs', hperm.cons b, List.filterMap_cons_none hb⟩
    | some a =>
      rw [List.filterMap_cons_some hb] at h
      obtain ⟨s, t, rfl⟩ := List.append_of_mem (h.symm.subset List.mem_cons_self)
      obtain ⟨inputs', hperm, hst⟩ := ih (List.Perm.cons_inv (List.perm_middle.symm.trans h))
      obtain ⟨s', t', rfl, rfl, rfl⟩ := List.filterMap_eq_append_iff.mp hst
      refine ⟨s' ++ b :: t', List.perm_middle.trans (hperm.cons b), ?_⟩
      rw [List.filterMap_append, List.filterMap_cons_some hb]

/-- `take_sort_perm_iff` where the list that is sorted is made of another one. -/
theorem take_sort_filterMap_iff {β : Type} {f : β → Option α} {inputs : List β}
    (hnodup : (inputs.filterMap f).Nodup) (htotal : ∀ a b, le a b = true ∨ le b a = true) :
    (∀ (engine : StableSort) (inputs' : List β), inputs'.Perm inputs →
      (engine.sort le (inputs'.filterMap f)).take n = (engine.sort le (inputs.filterMap f)).take n)
      ↔ OrderFree le (inputs.filterMap f) n := by
  rw [← take_sort_perm_iff hnodup fun a _ b _ => htotal a b]
  constructor
  · intro h engine l' hl'
    obtain ⟨inputs', hperm, rfl⟩ := exists_perm_filterMap hl'
    exact h engine inputs' hperm
  · exact fun h engine inputs' hperm => h engine _ (hperm.filterMap f)

end Take

end Library
