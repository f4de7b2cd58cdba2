import ChamaEscrow.Library.OrderedMap
import Mathlib.Order.Lattice

/-!
# The newest entry under each key

A list is read into a table that has one entry for each key, where an entry replaces one of its key
only when it is newer.  What is left under a key is `newest` of the entries with the key: the first
of the latest time (`get_newestOfEach`).  A list with the same entries in another order, or with
some of them repeated, leaves the same entry as soon as no two of the latest time differ
(`newest_congr`); where two do, each of them is left by some such list (`newest_cons_of_latest`).
-/

namespace Library

variable {α κ τ : Type*} [LinearOrder τ] {time : α → τ}

/-- The entry that stays when `a` comes after `prior`. -/
def newer (time : α → τ) (prior : Option α) (a : α) : Option α :=
  if prior.all fun b => time b < time a then some a else prior

def newest (time : α → τ) (l : List α) : Option α := l.foldl (newer time) none

def IsLatest (time : α → τ) (l : List α) (a : α) : Prop := a ∈ l ∧ ∀ b ∈ l, time b ≤ time a

theorem newer_cases (prior : Option α) (a : α) :
    ∃ b, newer time prior a = some b ∧ (b = a ∨ prior = some b) ∧ time a ≤ time b ∧
      ∀ c, prior = some c → time c ≤ time b := by
  unfold newer
  cases prior with
  | none => exact ⟨a, rfl, Or.inl rfl, le_rfl, fun c hc => by cases hc⟩
  | some c =>
    rw [Option.all_some]
    split_ifs with hlt
    · refine ⟨a, rfl, Or.inl rfl, le_rfl, fun d hd => ?_⟩
      rw [← Option.some.inj hd]
      exact (of_decide_eq_true hlt).le
    · have hle : time a ≤ time c := not_lt.mp fun h => hlt (decide_eq_true h)
      refine ⟨c, rfl, Or.inr rfl, hle, fun d hd => ?_⟩
      rw [← Option.some.inj hd]

variable {l : List α}

/-- The fold behind `newest`, from any entry on. -/
theorem foldl_newer {prior : Option α} {b : α} (h : l.foldl (newer time) prior = some b) :
    (b ∈ l ∨ prior = some b) ∧ (∀ a ∈ l, time a ≤ time b) ∧
      ∀ a, prior = some a → time a ≤ time b := by
  induction l generalizing prior with
  | nil =>
    have hprior : prior = some b := h
    refine ⟨Or.inr hprior, List.forall_mem_nil _, fun a ha => ?_⟩
    rw [hprior] at ha
    rw [Option.some.inj ha]
  | cons c l ih =>
    rw [List.foldl_cons] at h
    obtain ⟨d, hd, hfrom, hc, hold⟩ := @newer_cases _ _ _ time prior c
    obtain ⟨hmem, hall, hprior⟩ := ih h
    have hdb : time d ≤ time b := hprior d hd
    refine ⟨?_, List.forall_mem_cons.mpr ⟨hc.trans hdb, hall⟩, fun a ha => (hold a ha).trans hdb⟩
    rcases hmem with hmem | hmem
    · exact Or.inl (List.mem_cons_of_mem _ hmem)
    · rw [hd] at hmem
      obtain rfl := Option.some.inj hmem
      rcases hfrom with rfl | hfrom
      · exact Or.inl List.mem_cons_self
      · exact Or.inr hfrom

theorem isLatest_of_newest {b : α} (h : newest time l = some b) : IsLatest time l b := by
  obtain ⟨hmem | hmem, hall, -⟩ := foldl_newer h
  · exact ⟨hmem, hall⟩
  · cases hmem

theorem newest_eq_none : newest time l = none ↔ l = [] := by
  have hsome : ∀ (l : List α) (b : α), ∃ c, l.foldl (newer time) (some b) = some c := by
    intro l
    induction l with
    | nil => exact fun b => ⟨b, rfl⟩
    | cons c l ih =>
      intro b
      obtain ⟨d, hd, -⟩ := @newer_cases _ _ _ time (some b) c
      rw [List.foldl_cons, hd]
      exact ih d
  cases l with
  | nil => exact iff_of_true rfl rfl
  | cons a l =>
    refine iff_of_false (fun h => ?_) (List.cons_ne_nil a l)
    obtain ⟨c, hc⟩ := hsome l a
    have hfold : l.foldl (newer time) (some a) = none := h
    rw [hc] at hfold
    cases hfold

theorem newest_cons_of_latest {a : α} (h : ∀ b ∈ l, time b ≤ time a) :
    newest time (a :: l) = some a := by
  have hstay : l.foldl (newer time) (some a) = some a := by
    induction l with
    | nil => rfl
    | cons b l ih =>
      rw [List.forall_mem_cons] at h
      have hkeep : newer time (some a) b = some a := by
        rw [newer, Option.all_some, if_neg]
        rw [decide_eq_true_eq]
        exact h.1.not_gt
      rw [List.foldl_cons, hkeep]
      exact ih h.2
  exact hstay

/-- Where one entry alone is of the latest time, the order and the repetitions of the list do not
matter. -/
theorem newest_congr {l l' : List α} (hmem : ∀ a, a ∈ l' ↔ a ∈ l)
    (hone : ∀ a b, IsLatest time l a → IsLatest time l b → a = b) :
    newest time l' = newest time l := by
  cases hl : newest time l with
  | none =>
    have hnil : l = [] := newest_eq_none.mp hl
    rw [newest_eq_none, List.eq_nil_iff_forall_not_mem]
    intro a ha
    rw [hmem, hnil] at ha
    cases ha
  | some b =>
    cases hl' : newest time l' with
    | none =>
      have hb := (hmem b).mpr (isLatest_of_newest hl).1
      rw [newest_eq_none.mp hl'] at hb
      cases hb
    | some a =>
      obtain ⟨ha, hle⟩ := isLatest_of_newest hl'
      have hlatest : IsLatest time l a := ⟨(hmem a).mp ha, fun c hc => hle c ((hmem c).mpr hc)⟩
      rw [hone a b hlatest (isLatest_of_newest hl)]

/-! ### The table -/

variable [DecidableEq κ] {key : α → κ}

def keepNewer (time : α → τ) (key : α → κ) (m : OrderedMap κ α) (a : α) : OrderedMap κ α :=
  if (m.get (key a)).all fun b => time b < time a then m.set (key a) a else m

def newestOfEach (time : α → τ) (key : α → κ) (l : List α) : OrderedMap κ α :=
  l.foldl (keepNewer time key) .empty

theorem get_keepNewer (m : OrderedMap κ α) (a : α) (k : κ) :
    (keepNewer time key m a).get k = if key a = k then newer time (m.get k) a else m.get k := by
  unfold keepNewer newer
  by_cases hk : key a = k
  · subst hk
    rw [if_pos rfl]
    split_ifs
    · rw [OrderedMap.get_set, if_pos rfl]
    · rfl
  · rw [if_neg hk]
    split_ifs
    · rw [OrderedMap.get_set, if_neg fun h => hk h.symm]
    · rfl

theorem get_newestOfEach (l : List α) (k : κ) :
    (newestOfEach time key l).get k = newest time (l.filter fun a => key a = k) := by
  have hfold : ∀ m : OrderedMap κ α, (l.foldl (keepNewer time key) m).get k =
      (l.filter fun a => key a = k).foldl (newer time) (m.get k) := by
    induction l with
    | nil => exact fun m => rfl
    | cons a l ih =>
      intro m
      rw [List.foldl_cons, ih, get_keepNewer, List.filter_cons]
      by_cases hk : key a = k
      · rw [if_pos hk, if_pos (decide_eq_true hk), List.foldl_cons]
      · rw [if_neg hk, if_neg (by simpa using hk)]
  exact hfold .empty

theorem mem_values_newestOfEach {a : α} :
    a ∈ (newestOfEach time key l).values ↔
      newest time (l.filter fun b => key b = key a) = some a := by
  rw [OrderedMap.values, List.mem_map]
  constructor
  · rintro ⟨⟨k, b⟩, hmem, rfl⟩
    have hget := (OrderedMap.get_eq_some_iff _ _ _).mpr hmem
    rw [get_newestOfEach] at hget
    -- An entry is under its own key.
    have hkey := (List.mem_filter.mp (isLatest_of_newest hget).1).2
    rw [decide_eq_true_eq] at hkey
    rw [hkey]
    exact hget
  · intro hnewest
    rw [← get_newestOfEach] at hnewest
    exact ⟨(key a, a), (OrderedMap.get_eq_some_iff _ _ _).mp hnewest, rfl⟩

end Library
