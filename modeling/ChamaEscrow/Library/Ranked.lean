import Mathlib.Algebra.Order.Group.Nat
import Mathlib.Data.List.Basic

/-!
# The first entry of the highest rank

A list is folded into a table with one entry for each key, where a later entry replaces an earlier
one of its key only when it ranks higher.  What is left under a key is `best` of the entries with
that key: the first of the highest rank.  Which entry that is depends on the order of the list as
soon as two of them rank highest (`best_of_top`), and only then.
-/

namespace Library

universe u

variable {α : Type u} {rank : α → ℕ} {same : α → α → Bool}

/-- The entry that stays under a key when `a` comes after `prior`. -/
def better (rank : α → ℕ) (prior : Option α) (a : α) : α :=
  match prior with
  | none => a
  | some b => if rank b < rank a then a else b

def best (rank : α → ℕ) (l : List α) : Option α :=
  l.foldl (fun prior a => some (better rank prior a)) none

/-- The table with `a` put under its key. -/
def place (rank : α → ℕ) (same : α → α → Bool) : (table : List α) → (a : α) → List α
  | [], a => [a]
  | b :: table, a =>
    if same b a then better rank (some b) a :: table else b :: place rank same table a

def collect (rank : α → ℕ) (same : α → α → Bool) (l : List α) : List α :=
  l.foldl (place rank same) []

/-! ### The best entry -/

theorem better_mem {prior : Option α} {a b : α} (h : better rank prior a = b) :
    b = a ∨ prior = some b := by
  cases prior with
  | none => exact Or.inl h.symm
  | some c =>
    unfold better at h
    dsimp only at h
    split_ifs at h
    · exact Or.inl h.symm
    · exact Or.inr (congrArg some h)

theorem rank_le_better (prior : Option α) (a : α) :
    rank a ≤ rank (better rank prior a) ∧
      ∀ b, prior = some b → rank b ≤ rank (better rank prior a) := by
  cases prior with
  | none => exact ⟨le_rfl, fun b h => by cases h⟩
  | some c =>
    unfold better
    dsimp only
    split_ifs with hlt
    · exact ⟨le_rfl, fun b h => Option.some.inj h ▸ hlt.le⟩
    · exact ⟨not_lt.mp hlt, fun b h => Option.some.inj h ▸ le_rfl⟩

variable {l : List α}

/-- The fold behind `best`, from any entry on. -/
theorem foldl_better {prior : Option α} {b : α}
    (h : l.foldl (fun prior a => some (better rank prior a)) prior = some b) :
    (b ∈ l ∨ prior = some b) ∧ (∀ a ∈ l, rank a ≤ rank b) ∧
      ∀ a, prior = some a → rank a ≤ rank b := by
  induction l generalizing prior with
  | nil => exact ⟨Or.inr h, by simp, fun a ha => (Option.some.inj (ha ▸ h)) ▸ le_rfl⟩
  | cons c l ih =>
    obtain ⟨hmem, hall, hprior⟩ := ih h
    obtain ⟨hc, hold⟩ := @rank_le_better _ rank prior c
    have hbetter := hprior _ rfl
    refine ⟨?_, List.forall_mem_cons.mpr ⟨hc.trans hbetter, hall⟩,
      fun a ha => (hold a ha).trans hbetter⟩
    rcases hmem with hmem | hmem
    · exact Or.inl (List.mem_cons_of_mem _ hmem)
    · rcases better_mem (Option.some.inj hmem) with rfl | hprior
      · exact Or.inl List.mem_cons_self
      · exact Or.inr hprior

theorem best_spec {b : α} (h : best rank l = some b) : b ∈ l ∧ ∀ a ∈ l, rank a ≤ rank b := by
  obtain ⟨hmem | hmem, hall, -⟩ := foldl_better h
  · exact ⟨hmem, hall⟩
  · cases hmem

theorem best_eq_none : best rank l = none ↔ l = [] := by
  have hsome (l : List α) (b : α) :
      (l.foldl (fun prior a => some (better rank prior a)) (some b)).isSome = true := by
    induction l generalizing b with
    | nil => rfl
    | cons c l ih => exact ih _
  cases l with
  | nil => exact iff_of_true rfl rfl
  | cons a l =>
    refine iff_of_false (fun h => ?_) (List.cons_ne_nil a l)
    have := hsome l a
    rw [show l.foldl _ (some a) = none from h] at this
    cases this

theorem best_of_top {a : α} (htop : ∀ b, rank b ≤ rank a) (l : List α) :
    best rank (a :: l) = some a := by
  have hstay (l : List α) :
      l.foldl (fun prior b => some (better rank prior b)) (some a) = some a := by
    induction l with
    | nil => rfl
    | cons b l ih =>
      rw [List.foldl_cons, better, if_neg (htop b).not_gt]
      exact ih
  exact hstay l

/-! ### The table -/

/-- A class of entries that share a key: whether an entry belongs to it decides whether it has the
key of a member. -/
structure IsKey (same : α → α → Bool) (p : α → Bool) : Prop where
  member : ∀ a b, p a = true → same b a = p b
  stranger : ∀ a b, p a = false → same b a = true → p b = false

variable {p : α → Bool}

theorem IsKey.better (hkey : IsKey same p) {a b : α} (hsame : same b a = true) :
    p (better rank (some b) a) = p a := by
  have hb : p b = p a := by
    cases ha : p a with
    | true => rw [← hkey.member a b ha, hsame]
    | false => exact hkey.stranger a b ha hsame
  rcases @better_mem _ rank (some b) a _ rfl with h | h
  · rw [h]
  · rw [← Option.some.inj h, hb]

theorem filter_place (hkey : IsKey same p) (table : List α) (a : α) :
    (place rank same table a).filter p = if p a = true
      then Library.better rank (table.filter p).head? a :: (table.filter p).tail
      else table.filter p := by
  induction table with
  | nil =>
    rw [place, List.filter_cons]
    rfl
  | cons b table ih =>
    rw [place]
    cases hsame : same b a with
    | true =>
      have hbetter : p (better rank (some b) a) = p a := hkey.better hsame
      rw [if_pos rfl, List.filter_cons, hbetter]
      cases ha : p a with
      | true =>
        have hb : p b = true := by rw [← hkey.member a b ha, hsame]
        rw [if_pos rfl, if_pos rfl, List.filter_cons_of_pos hb]
        rfl
      | false =>
        have hb : p b = false := hkey.stranger a b ha hsame
        rw [if_neg Bool.false_ne_true, if_neg Bool.false_ne_true,
          List.filter_cons_of_neg (by rw [hb]; exact Bool.false_ne_true)]
    | false =>
      rw [if_neg Bool.false_ne_true, List.filter_cons, ih, List.filter_cons]
      cases ha : p a with
      | true =>
        have hb : p b = false := by rw [← hkey.member a b ha, hsame]
        rw [hb, if_neg Bool.false_ne_true, if_neg Bool.false_ne_true]
      | false => rw [if_neg Bool.false_ne_true, if_neg Bool.false_ne_true]

theorem filter_collect (hkey : IsKey same p) (l : List α) :
    (collect rank same l).filter p = (best rank (l.filter p)).toList := by
  have hfold (l table : List α) (prior : Option α) (h : table.filter p = prior.toList) :
      (l.foldl (place rank same) table).filter p
        = ((l.filter p).foldl (fun prior a => some (better rank prior a)) prior).toList := by
    induction l generalizing table prior with
    | nil => exact h
    | cons a l ih =>
      rw [List.foldl_cons, List.filter_cons]
      have hplace := @filter_place _ rank _ _ hkey table a
      rw [h] at hplace
      cases ha : p a with
      | true =>
        rw [ha, if_pos rfl] at hplace
        rw [if_pos rfl, List.foldl_cons]
        refine ih _ _ ?_
        rw [hplace]
        cases prior <;> rfl
      | false =>
        rw [ha, if_neg Bool.false_ne_true] at hplace
        rw [if_neg Bool.false_ne_true]
        exact ih _ _ hplace
  exact hfold l [] none rfl

end Library
