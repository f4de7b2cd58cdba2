import Mathlib.Algebra.BigOperators.Group.List.Basic
import Mathlib.Algebra.Order.Ring.Nat
import Mathlib.Data.List.Sort

/-!
# First fit

A first-fit pass walks a list and takes what still fits in a capacity; it refuses the rest and goes
on.  What is taken never exceeds the capacity, and an element that is refused does not fit after
the ones taken before it.

The pass depends on the order of the list.  For lists sorted by a key, where only elements of one
key can change places, it refuses the same elements in every order if and only if, at each key, the
elements that would each fit fit together (`refused_perm`, `exists_order`).
-/

namespace Library

variable {α : Type*} (cap : ℕ) (size : α → ℕ)

/-- The pass over a list, with an amount taken already: each element, and whether it is refused. -/
def marks : ℕ → List α → List (α × Bool)
  | _, [] => []
  | used, a :: l =>
    if cap < used + size a then (a, true) :: marks used l
    else (a, false) :: marks (used + size a) l

def refused (used : ℕ) (l : List α) : List α :=
  ((marks cap size used l).filter Prod.snd).map Prod.fst

/-- The elements of a pass that are not refused. -/
def kept (marked : List (α × Bool)) : List α := (marked.filter fun p => !p.2).map Prod.fst

/-- The amount that some elements take together. -/
def total (l : List α) : ℕ := (l.map size).sum

/-- The amount that is taken after a pass. -/
def filled (used : ℕ) (l : List α) : ℕ := used + total size (kept (marks cap size used l))

variable {cap size}

/-! ### One pass -/

theorem marks_cons (used : ℕ) (a : α) (l : List α) : marks cap size used (a :: l) =
    if cap < used + size a then (a, true) :: marks cap size used l
    else (a, false) :: marks cap size (used + size a) l := rfl

@[simp]
theorem total_nil : total size [] = 0 := rfl

@[simp]
theorem total_cons (a : α) (l : List α) : total size (a :: l) = size a + total size l := by
  rw [total, List.map_cons, List.sum_cons, total]

theorem total_perm {l l' : List α} (h : l.Perm l') : total size l = total size l' :=
  (h.map size).sum_eq

@[simp]
theorem refused_nil (used : ℕ) : refused cap size used [] = [] := rfl

@[simp]
theorem filled_nil (used : ℕ) : filled cap size used [] = used := rfl

theorem kept_cons_true (a : α) (marked : List (α × Bool)) :
    kept ((a, true) :: marked) = kept marked := by
  rw [kept, List.filter_cons_of_neg Bool.false_ne_true, kept]

theorem kept_cons_false (a : α) (marked : List (α × Bool)) :
    kept ((a, false) :: marked) = a :: kept marked := by
  rw [kept, List.filter_cons_of_pos rfl, List.map_cons, kept]

/-- A pass that refuses nothing keeps all of its elements. -/
theorem kept_eq_map {marked : List (α × Bool)}
    (h : (marked.filter Prod.snd).map Prod.fst = []) : kept marked = marked.map Prod.fst := by
  rw [List.map_eq_nil_iff, List.filter_eq_nil_iff] at h
  rw [kept, List.filter_eq_self.mpr fun p hp => by simpa using h p hp]

theorem refused_cons (used : ℕ) (a : α) (l : List α) :
    refused cap size used (a :: l) =
      if cap < used + size a then a :: refused cap size used l
      else refused cap size (used + size a) l := by
  unfold refused
  rw [marks_cons]
  split_ifs with h
  · rw [List.filter_cons_of_pos rfl, List.map_cons]
  · rw [List.filter_cons_of_neg Bool.false_ne_true]

theorem filled_cons (used : ℕ) (a : α) (l : List α) :
    filled cap size used (a :: l) =
      if cap < used + size a then filled cap size used l
      else filled cap size (used + size a) l := by
  unfold filled
  rw [marks_cons]
  split_ifs with h
  · rw [kept_cons_true]
  · rw [kept_cons_false, total_cons, add_assoc]

theorem map_fst_marks (used : ℕ) (l : List α) : (marks cap size used l).map Prod.fst = l := by
  induction l generalizing used with
  | nil => rfl
  | cons a l ih =>
    rw [marks_cons]
    split_ifs with h
    · rw [List.map_cons, ih]
    · rw [List.map_cons, ih]

variable {used : ℕ}

/-- What is taken stays within the capacity. -/
theorem filled_le (h : used ≤ cap) (l : List α) : filled cap size used l ≤ cap := by
  induction l generalizing used with
  | nil => exact h
  | cons a l ih =>
    rw [filled_cons]
    split_ifs with hfits
    · exact ih h
    · exact ih (Nat.le_of_not_lt hfits)

variable {l : List α}

theorem lt_of_refused {before after : List (α × Bool)} {a : α}
    (h : marks cap size used l = before ++ (a, true) :: after) :
    cap < used + total size (kept before) + size a := by
  induction l generalizing used before with
  | nil => exact absurd (congrArg List.length h) (by simp [marks])
  | cons b l ih =>
    rw [marks_cons] at h
    cases before with
    | nil =>
      split_ifs at h with hfits
      · rw [List.nil_append, List.cons.injEq, Prod.mk.injEq] at h
        rw [← h.1.1]
        exact hfits
      · exact absurd (Prod.mk.inj (List.cons.inj h).1).2 Bool.false_ne_true
    | cons p before =>
      split_ifs at h with hfits
      · obtain ⟨rfl, hrest⟩ := List.cons.inj h
        rw [kept_cons_true]
        exact ih hrest
      · obtain ⟨rfl, hrest⟩ := List.cons.inj h
        have hnext := ih hrest
        rw [kept_cons_false, total_cons]
        omega

theorem refused_append (used : ℕ) (l l' : List α) :
    refused cap size used (l ++ l') =
      refused cap size used l ++ refused cap size (filled cap size used l) l' := by
  induction l generalizing used with
  | nil => rfl
  | cons a l ih =>
    rw [List.cons_append, refused_cons, refused_cons, filled_cons]
    split_ifs with h
    · rw [ih, List.cons_append]
    · rw [ih]

theorem filled_append (used : ℕ) (l l' : List α) :
    filled cap size used (l ++ l') = filled cap size (filled cap size used l) l' := by
  induction l generalizing used with
  | nil => rfl
  | cons a l ih =>
    rw [List.cons_append, filled_cons, filled_cons]
    split_ifs with h
    · rw [ih]
    · rw [ih]

theorem refused_subset (used : ℕ) (l : List α) : refused cap size used l ⊆ l := by
  intro a ha
  obtain ⟨p, hp, rfl⟩ := List.mem_map.mp ha
  rw [← @map_fst_marks _ cap size used l]
  exact List.mem_map_of_mem (List.mem_of_mem_filter hp)

/-! ### Elements that fit together -/

def fits (cap : ℕ) (size : α → ℕ) (used : ℕ) (a : α) : Bool := used + size a ≤ cap

theorem fits_eq_true {a : α} : fits cap size used a = true ↔ used + size a ≤ cap :=
  decide_eq_true_iff

theorem pass_of_fit {used v : ℕ} (hle : used ≤ v)
    (h : v + total size (l.filter (fits cap size used)) ≤ cap) :
    refused cap size v l = l.filter (fun a => !fits cap size used a) ∧
      filled cap size v l = v + total size (l.filter (fits cap size used)) := by
  induction l generalizing v with
  | nil => exact ⟨rfl, rfl⟩
  | cons a l ih =>
    rw [refused_cons, filled_cons]
    cases hfits : fits cap size used a with
    | true =>
      rw [List.filter_cons_of_pos hfits, total_cons] at h ⊢
      rw [List.filter_cons_of_neg (by rw [hfits]; decide), if_neg (by omega), if_neg (by omega)]
      obtain ⟨hrefused, hfilled⟩ := ih (hle.trans (Nat.le_add_right v (size a))) (by omega)
      exact ⟨hrefused, by omega⟩
    | false =>
      have hover : cap < used + size a := by
        rw [← Nat.not_le, ← fits_eq_true, hfits]
        exact Bool.false_ne_true
      have hneg : ¬ fits cap size used a = true := by
        rw [hfits]
        exact Bool.false_ne_true
      rw [List.filter_cons_of_neg hneg] at h ⊢
      rw [List.filter_cons_of_pos (by rw [hfits]; rfl), if_pos (by omega), if_pos (by omega)]
      obtain ⟨hrefused, hfilled⟩ := ih hle h
      exact ⟨by rw [hrefused], hfilled⟩

theorem exists_refused (hused : used ≤ cap)
    (h : cap < used + total size (l.filter (fits cap size used))) :
    ∃ a ∈ refused cap size used l, fits cap size used a = true := by
  by_contra hnone
  push Not at hnone
  -- Otherwise the pass takes all of them, beyond its capacity.
  have hgeneral (v : ℕ) (l : List α)
      (hnone : ∀ a ∈ refused cap size v l, ¬ fits cap size used a = true) :
      v + total size (l.filter (fits cap size used)) ≤ filled cap size v l := by
    induction l generalizing v with
    | nil => exact le_rfl
    | cons a l ih =>
      rw [refused_cons] at hnone
      rw [filled_cons]
      split_ifs at hnone ⊢ with hover
      · have ha := hnone a (List.mem_cons_self ..)
        rw [List.filter_cons_of_neg ha]
        exact ih v fun b hb => hnone b (List.mem_cons_of_mem a hb)
      · have hrest := ih (v + size a) hnone
        by_cases ha : fits cap size used a = true
        · rw [List.filter_cons_of_pos ha, total_cons]
          omega
        · rw [List.filter_cons_of_neg ha]
          omega
  have hall := hgeneral used l hnone
  have hcap := @filled_le _ _ size _ hused l
  omega

/-! ### The order among equal keys -/

section

variable {κ : Type*} [LinearOrder κ] (key : α → κ)

/-- The elements before a key, and those at it. -/
def below (t : κ) (l : List α) : List α := l.filter fun a => key a < t

def atKey (t : κ) (l : List α) : List α := l.filter fun a => key a = t

def TiesFit (cap : ℕ) (size : α → ℕ) (used : ℕ) (l : List α) : Prop :=
  ∀ t, filled cap size used (below key t l)
    + total size ((atKey key t l).filter (fits cap size (filled cap size used (below key t l))))
    ≤ cap

variable {key}

theorem sorted_split (hl : l.Pairwise fun a b => key a ≤ key b) (t : κ) :
    l = below key t l ++ (atKey key t l ++ l.filter fun a => t < key a) := by
  induction l with
  | nil => rfl
  | cons a l ih =>
    obtain ⟨hfirst, hrest⟩ := List.pairwise_cons.mp hl
    have hsplit := ih hrest
    unfold below atKey at hsplit ⊢
    rw [List.filter_cons, List.filter_cons, List.filter_cons]
    rcases lt_trichotomy (key a) t with hlt | heq | hgt
    · simp only [hlt, hlt.ne, hlt.not_gt, decide_true, decide_false, if_true, Bool.false_eq_true,
        if_false, List.cons_append]
      rw [← hsplit]
    · have hbelow : (l.filter fun b => key b < t) = [] :=
        List.filter_eq_nil_iff.mpr fun b hb => by simpa [heq] using hfirst b hb
      simp only [heq, lt_irrefl, decide_true, decide_false, if_true, Bool.false_eq_true, if_false,
        hbelow, List.nil_append, List.cons_append] at hsplit ⊢
      rw [← hsplit]
    · have hbelow : (l.filter fun b => key b < t) = [] :=
        List.filter_eq_nil_iff.mpr fun b hb => by simpa using (hgt.trans_le (hfirst b hb)).le
      have hat : (l.filter fun b => key b = t) = [] :=
        List.filter_eq_nil_iff.mpr fun b hb => by simpa using (hgt.trans_le (hfirst b hb)).ne'
      simp only [hgt, hgt.ne', hgt.not_gt, decide_true, decide_false, if_true, Bool.false_eq_true,
        if_false, hbelow, hat, List.nil_append] at hsplit ⊢
      rw [← hsplit]

/-- If the elements of each key that would fit do so together, the pass refuses the same elements in
every order that the keys allow. -/
theorem refused_perm (hused : used ≤ cap) {l l' : List α}
    (hl : l.Pairwise fun a b => key a ≤ key b) (hl' : l'.Pairwise fun a b => key a ≤ key b)
    (hperm : l.Perm l') (hties : TiesFit key cap size used l) :
    (refused cap size used l).Perm (refused cap size used l') := by
  -- The elements of the first key are dealt with at once.
  induction hlength : l.length using Nat.strong_induction_on generalizing used l l' with
  | _ n ih =>
    cases l with
    | nil =>
      rw [List.nil_perm.mp hperm]
    | cons a l =>
      obtain ⟨hfirst, -⟩ := List.pairwise_cons.mp hl
      let rest (l : List α) := l.filter fun b => key a < key b
      have hnone {m : List α} (hm : m ⊆ a :: l) : below key (key a) m = [] := by
        refine List.filter_eq_nil_iff.mpr fun b hb => ?_
        rcases List.mem_cons.mp (hm hb) with rfl | hb
        · simp
        · simpa using hfirst b hb
      have hsplit := sorted_split hl (key a)
      have hsplit' := sorted_split hl' (key a)
      rw [hnone (List.Subset.refl _), List.nil_append] at hsplit
      rw [hnone hperm.symm.subset, List.nil_append] at hsplit'
      have hgroup : (atKey key (key a) (a :: l)).Perm (atKey key (key a) l') := hperm.filter _
      have hrest := hperm.filter fun b => key a < key b
      have hfit := hties (key a)
      rw [hnone (List.Subset.refl _), filled_nil] at hfit
      have hfit' : used + total size ((atKey key (key a) l').filter (fits cap size used)) ≤ cap := by
        rw [← total_perm (hgroup.filter _)]
        exact hfit
      obtain ⟨hrefused, hfilled⟩ := pass_of_fit le_rfl hfit
      obtain ⟨hrefused', hfilled'⟩ := pass_of_fit le_rfl hfit'
      have hsame : filled cap size used (atKey key (key a) (a :: l))
          = filled cap size used (atKey key (key a) l') := by
        rw [hfilled, hfilled', total_perm (hgroup.filter _)]
      rw [hsplit, hsplit', refused_append, refused_append, hrefused, hrefused', ← hsame]
      refine (hgroup.filter _).append ?_
      refine ih _ ?_ (filled_le hused _) (hl.filter _) (hl'.filter _) hrest (fun t => ?_) rfl
      · -- The rest is shorter: the first element is not in it.
        rw [← hlength, List.filter_cons_of_neg (by simp), List.length_cons]
        exact Nat.lt_succ_of_le (List.length_filter_le _ _)
      · by_cases ht : key a < t
        · have hstep := hties t
          have hbelow : below key t (a :: l) = atKey key (key a) (a :: l)
              ++ below key t ((a :: l).filter fun b => key a < key b) := by
            conv_lhs => rw [hsplit]
            rw [below, List.filter_append]
            congr 1
            refine List.filter_eq_self.mpr fun b hb => ?_
            have hb := of_decide_eq_true (List.mem_filter.mp hb).2
            exact decide_eq_true (hb ▸ ht)
          have hat : atKey key t (a :: l)
              = atKey key t ((a :: l).filter fun b => key a < key b) := by
            conv_lhs => rw [hsplit]
            have hnil : (atKey key (key a) (a :: l)).filter (fun b => key b = t) = [] := by
              refine List.filter_eq_nil_iff.mpr fun b hb => ?_
              have hb := of_decide_eq_true (List.mem_filter.mp hb).2
              simpa [hb] using ht.ne
            rw [atKey, List.filter_append, hnil, List.nil_append, atKey]
          rw [hbelow, filled_append, hat] at hstep
          exact hstep
        · have hbelow : below key t ((a :: l).filter fun b => key a < key b) = [] := by
            refine List.filter_eq_nil_iff.mpr fun b hb => ?_
            have hb := of_decide_eq_true (List.mem_filter.mp hb).2
            simpa using (le_of_not_gt ht).trans hb.le
          have hat : atKey key t ((a :: l).filter fun b => key a < key b) = [] := by
            refine List.filter_eq_nil_iff.mpr fun b hb => ?_
            have hb := of_decide_eq_true (List.mem_filter.mp hb).2
            simpa using ((le_of_not_gt ht).trans_lt hb).ne'
          rw [hbelow, hat, List.filter_nil, total_nil, filled_nil]
          exact filled_le hused _

theorem exists_order (hused : used ≤ cap) (hnodup : l.Nodup)
    (hl : l.Pairwise fun a b => key a ≤ key b) (hties : ¬ TiesFit key cap size used l) :
    ∃ l', l'.Perm l ∧ (l'.Pairwise fun a b => key a ≤ key b) ∧
      ∃ a ∈ refused cap size used l, a ∉ refused cap size used l' := by
  rw [TiesFit, not_forall] at hties
  obtain ⟨t, hover⟩ := hties
  obtain ⟨a, ha, hfits⟩ := exists_refused (filled_le hused (below key t l)) (Nat.lt_of_not_le hover)
  have hmem := refused_subset _ _ ha
  have hsplit := sorted_split hl t
  obtain ⟨first, second, hat⟩ := List.append_of_mem hmem
  have hfront : (a :: (first ++ second)).Perm (atKey key t l) := by
    rw [hat]
    exact List.perm_middle.symm
  let l' := below key t l ++ ((a :: (first ++ second)) ++ l.filter fun b => t < key b)
  have hperm : l'.Perm l := by
    conv_rhs => rw [hsplit]
    exact (hfront.append_right _).append_left _
  have hnodup' : l'.Nodup := hperm.nodup_iff.mpr hnodup
  have hkey {b : α} (hb : b ∈ a :: (first ++ second)) : key b = t :=
    of_decide_eq_true (List.mem_filter.mp (hfront.subset hb)).2
  refine ⟨l', hperm, ?_, a, ?_, fun hrefused => ?_⟩
  · have hbelow {b : α} (hb : b ∈ below key t l) : key b < t :=
      of_decide_eq_true (List.mem_filter.mp hb).2
    have habove {b : α} (hb : b ∈ l.filter fun b => t < key b) : t < key b :=
      of_decide_eq_true (List.mem_filter.mp hb).2
    refine List.pairwise_append.mpr ⟨hl.filter _, List.pairwise_append.mpr
      ⟨List.pairwise_of_forall_mem_list fun b hb c hc => ?_, hl.filter _, fun b hb c hc => ?_⟩,
      fun b hb c hc => ?_⟩
    · rw [hkey hb, hkey hc]
    · rw [hkey hb]
      exact (habove hc).le
    · rcases List.mem_append.mp hc with hc | hc
      · rw [hkey hc]
        exact (hbelow hb).le
      · exact ((hbelow hb).trans (habove hc)).le
  · rw [hsplit, refused_append, refused_append]
    exact List.mem_append_right _ (List.mem_append_left _ ha)
  · rw [refused_append, List.cons_append, refused_cons,
      if_neg (Nat.not_lt.mpr (fits_eq_true.mp hfits))] at hrefused
    obtain ⟨-, hrest, hdisjoint⟩ := List.nodup_append.mp hnodup'
    rcases List.mem_append.mp hrefused with hlow | hhigh
    · exact hdisjoint a (refused_subset _ _ hlow) a
        (List.mem_append_left _ (List.mem_cons_self ..)) rfl
    · exact (List.nodup_cons.mp hrest).1 (refused_subset _ _ hhigh)

end

end Library
