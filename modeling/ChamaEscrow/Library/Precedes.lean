import Mathlib.Data.Fintype.Card
import Mathlib.Data.List.Nodup
import Mathlib.Data.Set.Finite.Basic
import Mathlib.Logic.Relation
import Mathlib.Order.WellFounded

/-!
# Precedence in a list

One element stands before another in a list.  What reorders a list piece by piece is described by
the pairs whose order it keeps.

* `precedes_filter`: a filter keeps the order of what it leaves.
* `precedes_moved`: an element that is moved directly before another precedes that one and what came
  after it, and all other pairs stay as they were.
* `exists_source`: a relation without cycles has a source in every list that is not empty.
-/

namespace Library

variable {α : Type*} {l l₁ l₂ : List α} {a b c x : α}

/-- `a` stands before `b`. -/
def Precedes (l : List α) (a b : α) : Prop := [a, b].Sublist l

instance [DecidableEq α] : Decidable (Precedes l a b) :=
  inferInstanceAs (Decidable (List.Sublist _ _))

theorem Precedes.map {β : Type*} (f : α → β) (h : Precedes l a b) :
    Precedes (l.map f) (f a) (f b) :=
  List.Sublist.map f h

theorem Precedes.left (h : Precedes l a b) : a ∈ l :=
  h.subset List.mem_cons_self

theorem Precedes.right (h : Precedes l a b) : b ∈ l :=
  h.subset (List.mem_cons_of_mem a List.mem_cons_self)

theorem not_precedes_nil : ¬ Precedes [] a b := by
  intro h
  cases List.eq_nil_of_sublist_nil h

theorem precedes_cons : Precedes (x :: l) a b ↔ (a = x ∧ b ∈ l) ∨ Precedes l a b := by
  unfold Precedes
  constructor
  · intro h
    cases h with
    | cons _ h => exact Or.inr h
    | cons_cons _ h => exact Or.inl ⟨rfl, List.singleton_sublist.mp h⟩
  · rintro (⟨rfl, hb⟩ | h)
    · exact (List.singleton_sublist.mpr hb).cons_cons a
    · exact h.cons x

theorem precedes_append : Precedes (l₁ ++ l₂) a b ↔
    Precedes l₁ a b ∨ (a ∈ l₁ ∧ b ∈ l₂) ∨ Precedes l₂ a b := by
  induction l₁ with
  | nil => simp [not_precedes_nil]
  | cons x l₁ ih =>
    rw [List.cons_append, precedes_cons, precedes_cons, ih, List.mem_append, List.mem_cons]
    grind

theorem precedes_filter {p : α → Bool} :
    Precedes (l.filter p) a b ↔ Precedes l a b ∧ p a = true ∧ p b = true := by
  induction l with
  | nil => simp [not_precedes_nil]
  | cons x l ih =>
    rw [List.filter_cons, precedes_cons]
    split_ifs with hx
    · rw [precedes_cons, ih, List.mem_filter]
      constructor
      · rintro (⟨rfl, hb, hpb⟩ | ⟨h, hpa, hpb⟩)
        · exact ⟨Or.inl ⟨rfl, hb⟩, hx, hpb⟩
        · exact ⟨Or.inr h, hpa, hpb⟩
      · rintro ⟨⟨rfl, hb⟩ | h, hpa, hpb⟩
        · exact Or.inl ⟨rfl, hb, hpb⟩
        · exact Or.inr ⟨h, hpa, hpb⟩
    · rw [ih]
      constructor
      · rintro ⟨h, hpa, hpb⟩
        exact ⟨Or.inr h, hpa, hpb⟩
      · rintro ⟨⟨rfl, -⟩ | h, hpa, hpb⟩
        · exact absurd hpa hx
        · exact ⟨h, hpa, hpb⟩

theorem Precedes.asymm (hl : l.Nodup) (h : Precedes l a b) : ¬ Precedes l b a := by
  induction l with
  | nil => exact absurd h not_precedes_nil
  | cons x l ih =>
    obtain ⟨hx, hl⟩ := List.nodup_cons.mp hl
    rw [precedes_cons] at h ⊢
    rintro (⟨rfl, ha⟩ | hback)
    · rcases h with ⟨rfl, hb⟩ | h
      · exact hx hb
      · exact hx h.right
    · rcases h with ⟨rfl, hb⟩ | h
      · exact hx hback.right
      · exact ih hl h hback

theorem precedes_middle (hl : (l₁ ++ c :: l₂).Nodup) :
    (Precedes (l₁ ++ c :: l₂) c b ↔ b ∈ l₂) ∧ (Precedes (l₁ ++ c :: l₂) a c ↔ a ∈ l₁) := by
  obtain ⟨-, hrest, hapart⟩ := List.nodup_append'.mp hl
  have hc₁ : c ∉ l₁ := fun h => hapart h List.mem_cons_self
  have hc₂ : c ∉ l₂ := (List.nodup_cons.mp hrest).1
  have hno {a : α} : ¬ Precedes l₂ c a ∧ ¬ Precedes l₂ a c :=
    ⟨fun h => hc₂ h.left, fun h => hc₂ h.right⟩
  have hno₁ {a : α} : ¬ Precedes l₁ c a ∧ ¬ Precedes l₁ a c :=
    ⟨fun h => hc₁ h.left, fun h => hc₁ h.right⟩
  constructor
  · simp [precedes_append, precedes_cons, hno, hno₁, hc₁]
  · simp [precedes_append, precedes_cons, hno, hno₁, hc₂]

theorem precedes_placed (hx : x ∉ l₁ ++ c :: l₂) :
    Precedes (l₁ ++ x :: c :: l₂) a b ↔
      Precedes (l₁ ++ c :: l₂) a b ∨ (a = x ∧ (b = c ∨ b ∈ l₂)) ∨ (a ∈ l₁ ∧ b = x) := by
  rw [List.mem_append, List.mem_cons, not_or, not_or] at hx
  simp only [precedes_append, precedes_cons, List.mem_cons]
  grind

/-- What moving an element directly before another does to the order of every pair. -/
theorem precedes_moved {p : α → Bool} (hl : l.Nodup) (hp : ∀ e ∈ l, p e = true ↔ e ≠ x)
    (hrest : l.filter p = l₁ ++ c :: l₂) :
    Precedes (l₁ ++ x :: c :: l₂) a b ↔ (a ≠ x ∧ b ≠ x ∧ Precedes l a b) ∨
      (a = x ∧ (b = c ∨ Precedes l c b ∧ b ≠ x)) ∨ (b = x ∧ Precedes l a c ∧ a ≠ x) := by
  have hnodup : (l₁ ++ c :: l₂).Nodup := hrest ▸ hl.filter p
  have hx : x ∉ l₁ ++ c :: l₂ := by
    rw [← hrest, List.mem_filter]
    exact fun h => (hp x h.1).mp h.2 rfl
  have hkept {a b : α} : Precedes (l₁ ++ c :: l₂) a b ↔ Precedes l a b ∧ a ≠ x ∧ b ≠ x := by
    rw [← hrest, precedes_filter]
    constructor
    · exact fun ⟨h, ha, hb⟩ => ⟨h, (hp a h.left).mp ha, (hp b h.right).mp hb⟩
    · exact fun ⟨h, ha, hb⟩ => ⟨h, (hp a h.left).mpr ha, (hp b h.right).mpr hb⟩
  have hc : c ≠ x := fun h => hx (h ▸ List.mem_append_right l₁ List.mem_cons_self)
  rw [precedes_placed hx, ← (precedes_middle hnodup (a := a)).1,
    ← (precedes_middle hnodup (b := b)).2, hkept, hkept, hkept]
  grind

theorem exists_source {r : α → α → Prop} (hr : ∀ e, ¬ Relation.TransGen r e e) (hl : l ≠ []) :
    ∃ m ∈ l, ∀ e ∈ l, ¬ r m e := by
  let leads (e e' : { e // e ∈ l }) : Prop := Relation.TransGen r e'.1 e.1
  have : IsTrans _ leads := ⟨fun _ _ _ h h' => h'.trans h⟩
  have : Std.Irrefl leads := ⟨fun e => hr e.1⟩
  have : Finite { e // e ∈ l } := List.finite_toSet l
  have hwf := Finite.wellFounded_of_trans_of_irrefl leads
  obtain ⟨e, he⟩ := List.exists_mem_of_ne_nil l hl
  obtain ⟨m, -, hm⟩ := hwf.has_min Set.univ ⟨⟨e, he⟩, trivial⟩
  exact ⟨m.1, m.2, fun e he h => hm ⟨e, he⟩ trivial (Relation.TransGen.single h)⟩

/-! ### Elements with keys -/

variable {κ : Type*} [DecidableEq κ] {f : α → κ}

/-- An element put before what differs from it is the list in another order. -/
theorem perm_cons_filter_ne (hl : (l.map f).Nodup) (ha : a ∈ l) :
    (a :: l.filter fun e => f e ≠ f a).Perm l := by
  induction l with
  | nil => cases ha
  | cons x l ih =>
    rw [List.map_cons, List.nodup_cons] at hl
    rcases List.mem_cons.mp ha with hax | ha'
    · have hall : (l.filter fun e => f e ≠ f a) = l := by
        rw [List.filter_eq_self]
        intro e he
        rw [decide_eq_true_iff, hax]
        exact fun h => hl.1 (h ▸ List.mem_map_of_mem he)
      rw [List.filter_cons, if_neg (by simp [hax]), hall, hax]
    · have hne : f x ≠ f a := fun h => hl.1 (h ▸ List.mem_map_of_mem ha')
      rw [List.filter_cons, if_pos (by simp [hne])]
      exact (List.Perm.swap x a _).trans ((ih hl.2 ha').cons x)

theorem eraseP_eq_filter_ne (hl : (l.map f).Nodup) (k : κ) :
    (l.eraseP fun e => f e = k) = l.filter fun e => f e ≠ k := by
  induction l with
  | nil => rfl
  | cons x l ih =>
    rw [List.map_cons, List.nodup_cons] at hl
    rw [List.filter_cons]
    by_cases hx : f x = k
    · rw [List.eraseP_cons_of_pos (by simp [hx]), if_neg (by simp [hx])]
      symm
      rw [List.filter_eq_self]
      intro e he
      rw [decide_eq_true_iff]
      exact fun h => hl.1 (hx.trans h.symm ▸ List.mem_map_of_mem he)
    · rw [List.eraseP_cons_of_neg (by simp [hx]), if_pos (by simp [hx]), ih hl.2]

end Library
