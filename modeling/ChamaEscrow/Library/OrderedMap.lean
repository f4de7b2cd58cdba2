import Mathlib.Data.List.Nodup
import Mathlib.Tactic.Common

/-!
# Maps in insertion order

`OrderedMap κ α` is a finite map that remembers the order in which its keys were first set, the
order in which a JavaScript object or `Map` enumerates its entries.  Setting a key that is present
replaces its value in place.  The entries carry the proof that no key occurs twice.

Reading after a `set` is `get_set`, after an `erase` `get_erase`, after a `map` of the values
`get_map`, after a `filter` `get_filter`, after several sets `get_setAll_of_mem`; `get_eq_some_iff`
reads a value off the entries.
-/

namespace Library

variable {κ α : Type*} [DecidableEq κ]

structure OrderedMap (κ α : Type*) [DecidableEq κ] where
  entries : List (κ × α)
  nodup : (entries.map Prod.fst).Nodup

namespace OrderedMap

def empty : OrderedMap κ α := ⟨[], List.nodup_nil⟩

instance : Inhabited (OrderedMap κ α) := ⟨empty⟩

/-- The value under a key. -/
def get (m : OrderedMap κ α) (k : κ) : Option α := m.entries.lookup k

def keys (m : OrderedMap κ α) : List κ := m.entries.map Prod.fst

/-- The entries after `k` is set to `a`. -/
def setEntries : List (κ × α) → κ → α → List (κ × α)
  | [], k, a => [(k, a)]
  | (k', a') :: rest, k, a => if k = k' then (k, a) :: rest else (k', a') :: setEntries rest k a

theorem setEntries_cons (k' : κ) (a' : α) (rest : List (κ × α)) (k : κ) (a : α) :
    setEntries ((k', a') :: rest) k a =
      if k = k' then (k, a) :: rest else (k', a') :: setEntries rest k a := rfl

variable {l : List (κ × α)}

theorem fst_mem_setEntries {k k' : κ} {a : α}
    (h : k' ∈ (setEntries l k a).map Prod.fst) : k' = k ∨ k' ∈ l.map Prod.fst := by
  induction l with
  | nil => simpa [setEntries] using h
  | cons e rest ih =>
    obtain ⟨ke, ae⟩ := e
    rw [setEntries_cons] at h
    split_ifs at h with hk
    · simp only [List.map_cons, List.mem_cons] at h ⊢
      tauto
    · simp only [List.map_cons, List.mem_cons] at h ⊢
      rcases h with h | h
      · exact Or.inr (Or.inl h)
      · rcases ih h with h | h
        · exact Or.inl h
        · exact Or.inr (Or.inr h)

theorem nodup_setEntries (h : (l.map Prod.fst).Nodup) (k : κ) (a : α) :
    ((setEntries l k a).map Prod.fst).Nodup := by
  induction l with
  | nil => simp [setEntries]
  | cons e rest ih =>
    obtain ⟨ke, ae⟩ := e
    rw [List.map_cons, List.nodup_cons] at h
    rw [setEntries_cons]
    split_ifs with hk
    · subst hk
      simpa using h
    · rw [List.map_cons, List.nodup_cons]
      refine ⟨?_, ih h.2⟩
      intro hmem
      rcases fst_mem_setEntries hmem with h' | h'
      · exact hk h'.symm
      · exact h.1 h'

/-- The map with `k` set to `a`. -/
def set (m : OrderedMap κ α) (k : κ) (a : α) : OrderedMap κ α :=
  ⟨setEntries m.entries k a, nodup_setEntries m.nodup k a⟩

theorem lookup_setEntries (l : List (κ × α)) (k k' : κ) (a : α) :
    (setEntries l k a).lookup k' = if k' = k then some a else l.lookup k' := by
  induction l with
  | nil =>
    by_cases h : k' = k
    · subst h
      simp [setEntries]
    · simp [setEntries, List.lookup_cons, h, beq_false_of_ne h]
  | cons e rest ih =>
    obtain ⟨ke, ae⟩ := e
    rw [setEntries_cons]
    by_cases hk : k = ke
    · subst hk
      by_cases h : k' = k
      · subst h
        simp
      · simp [List.lookup_cons, h, beq_false_of_ne h]
    · rw [if_neg hk, List.lookup_cons, List.lookup_cons, ih]
      by_cases h : k' = ke
      · subst h
        have hne : ¬ k' = k := fun h => hk h.symm
        simp [hne]
      · simp [beq_false_of_ne h]

/-- Setting a key changes the value under that key and no other. -/
theorem get_set (m : OrderedMap κ α) (k k' : κ) (a : α) :
    (m.set k a).get k' = if k' = k then some a else m.get k' :=
  lookup_setEntries m.entries k k' a

theorem keys_setEntries (l : List (κ × α)) (k : κ) (a : α) :
    l.map Prod.fst <+: (setEntries l k a).map Prod.fst := by
  induction l with
  | nil => exact List.nil_prefix
  | cons e rest ih =>
    obtain ⟨ke, ae⟩ := e
    rw [setEntries_cons]
    split_ifs with hk
    · subst hk
      exact List.prefix_rfl
    · exact List.cons_prefix_cons.mpr ⟨rfl, ih⟩

theorem keys_prefix_set (m : OrderedMap κ α) (k : κ) (a : α) : m.keys <+: (m.set k a).keys :=
  keys_setEntries m.entries k a

@[simp]
theorem get_empty (k : κ) : (empty : OrderedMap κ α).get k = none := rfl

theorem lookup_eq_some_iff_mem (h : (l.map Prod.fst).Nodup) (k : κ) (a : α) :
    l.lookup k = some a ↔ (k, a) ∈ l := by
  induction l with
  | nil => simp
  | cons e rest ih =>
    obtain ⟨ke, ae⟩ := e
    rw [List.map_cons, List.nodup_cons] at h
    rw [List.lookup_cons, List.mem_cons]
    by_cases hk : k = ke
    · subst hk
      have hnot : (k, a) ∉ rest := fun hm => h.1 (List.mem_map.mpr ⟨_, hm, rfl⟩)
      simp [hnot, eq_comm]
    · simp [beq_false_of_ne hk, ih h.2, hk]

theorem get_eq_some_iff (m : OrderedMap κ α) (k : κ) (a : α) :
    m.get k = some a ↔ (k, a) ∈ m.entries :=
  lookup_eq_some_iff_mem m.nodup k a

variable {k : κ}

theorem eq_of_mem_of_mem (m : OrderedMap κ α) {a b : α} (ha : (k, a) ∈ m.entries)
    (hb : (k, b) ∈ m.entries) : a = b := by
  rw [← get_eq_some_iff] at ha hb
  exact Option.some.inj (ha.symm.trans hb)

/-! ### Removing a key -/

/-- The map without the key `k`. -/
def erase (m : OrderedMap κ α) (k : κ) : OrderedMap κ α :=
  ⟨m.entries.filter fun e => e.1 ≠ k, m.nodup.sublist ((List.filter_sublist).map _)⟩

theorem lookup_filter_ne (l : List (κ × α)) (k k' : κ) :
    (l.filter fun e => e.1 ≠ k).lookup k' = if k' = k then none else l.lookup k' := by
  induction l with
  | nil => simp
  | cons e rest ih =>
    obtain ⟨ke, ae⟩ := e
    by_cases hk : ke = k
    · rw [List.filter_cons_of_neg (by simp [hk]), ih, List.lookup_cons]
      by_cases h : k' = k
      · simp [h]
      · have hne : ¬ k' = ke := fun h' => h (h'.trans hk)
        simp [h, beq_false_of_ne hne]
    · rw [List.filter_cons_of_pos (by simp [hk]), List.lookup_cons, List.lookup_cons, ih]
      by_cases h : k' = ke
      · subst h
        simp [hk]
      · simp [beq_false_of_ne h]

/-- Removing a key leaves the value under every other. -/
theorem get_erase (m : OrderedMap κ α) (k k' : κ) :
    (m.erase k).get k' = if k' = k then none else m.get k' :=
  lookup_filter_ne m.entries k k'

/-! ### Changing and dropping entries -/

def values (m : OrderedMap κ α) : List α := m.entries.map Prod.snd

def map (m : OrderedMap κ α) (f : κ → α → α) : OrderedMap κ α :=
  ⟨m.entries.map fun e => (e.1, f e.1 e.2), by
    rw [List.map_map]
    exact m.nodup⟩

theorem lookup_map_snd (l : List (κ × α)) (f : κ → α → α) (k : κ) :
    (l.map fun e => (e.1, f e.1 e.2)).lookup k = (l.lookup k).map (f k) := by
  induction l with
  | nil => rfl
  | cons e rest ih =>
    obtain ⟨ke, ae⟩ := e
    rw [List.map_cons, List.lookup_cons, List.lookup_cons, ih]
    by_cases h : k = ke
    · subst h
      simp
    · simp [beq_false_of_ne h]

theorem get_map (m : OrderedMap κ α) (f : κ → α → α) (k : κ) :
    (m.map f).get k = (m.get k).map (f k) :=
  lookup_map_snd m.entries f k

/-- The map with the entries that satisfy `p`. -/
def filter (m : OrderedMap κ α) (p : κ → α → Bool) : OrderedMap κ α :=
  ⟨m.entries.filter fun e => p e.1 e.2, m.nodup.sublist ((List.filter_sublist).map _)⟩

theorem get_filter (m : OrderedMap κ α) (p : κ → α → Bool) (k : κ) :
    (m.filter p).get k = (m.get k).filter (p k) := by
  ext a
  rw [get_eq_some_iff, Option.filter_eq_some_iff, get_eq_some_iff]
  exact List.mem_filter

/-- Whether some entry satisfies `p`. -/
def any (m : OrderedMap κ α) (p : κ → α → Bool) : Bool := m.entries.any fun e => p e.1 e.2

theorem any_eq_true (m : OrderedMap κ α) (p : κ → α → Bool) :
    m.any p = true ↔ ∃ k a, m.get k = some a ∧ p k a = true := by
  unfold any
  rw [List.any_eq_true]
  constructor
  · rintro ⟨⟨k, a⟩, hmem, hp⟩
    exact ⟨k, a, (get_eq_some_iff m k a).mpr hmem, hp⟩
  · rintro ⟨k, a, hget, hp⟩
    exact ⟨(k, a), (get_eq_some_iff m k a).mp hget, hp⟩

/-! ### Setting several keys -/

def setAll (m : OrderedMap κ α) (l : List (κ × α)) : OrderedMap κ α :=
  l.foldl (fun m e => m.set e.1 e.2) m

theorem setEntries_of_notMem (h : k ∉ l.map Prod.fst) (a : α) :
    setEntries l k a = l ++ [(k, a)] := by
  induction l with
  | nil => rfl
  | cons e rest ih =>
    obtain ⟨ke, ae⟩ := e
    rw [List.map_cons, List.mem_cons, not_or] at h
    rw [setEntries, if_neg h.1, ih h.2, List.cons_append]

theorem entries_setAll (m : OrderedMap κ α)
    (h : ((m.entries ++ l).map Prod.fst).Nodup) : (m.setAll l).entries = m.entries ++ l := by
  induction l generalizing m with
  | nil => simp [setAll]
  | cons e rest ih =>
    have hnew : e.1 ∉ m.entries.map Prod.fst := by
      rw [List.map_append, List.map_cons, List.nodup_append'] at h
      exact fun hmem => h.2.2 hmem List.mem_cons_self
    have hset : (m.set e.1 e.2).entries = m.entries ++ [e] := setEntries_of_notMem hnew e.2
    rw [setAll, List.foldl_cons]
    refine (ih (m.set e.1 e.2) ?_).trans ?_
    · rwa [hset, List.append_assoc, List.singleton_append]
    · rw [hset, List.append_assoc, List.singleton_append]

theorem get_setAll_of_notMem (m : OrderedMap κ α)
    (h : k ∉ l.map Prod.fst) : (m.setAll l).get k = m.get k := by
  induction l generalizing m with
  | nil => rfl
  | cons e rest ih =>
    rw [List.map_cons, List.mem_cons, not_or] at h
    rw [setAll, List.foldl_cons]
    exact (ih (m.set e.1 e.2) h.2).trans (by rw [get_set, if_neg h.1])

theorem get_setAll_of_mem (m : OrderedMap κ α) (h : (l.map Prod.fst).Nodup)
    {a : α} (hmem : (k, a) ∈ l) : (m.setAll l).get k = some a := by
  induction l generalizing m with
  | nil => cases hmem
  | cons e rest ih =>
    rw [List.map_cons, List.nodup_cons] at h
    rw [setAll, List.foldl_cons]
    rcases List.mem_cons.mp hmem with rfl | hmem
    · exact (get_setAll_of_notMem (m.set k a) h.1).trans (by rw [get_set, if_pos rfl])
    · exact ih (m.set e.1 e.2) h.2 hmem

/-- A value comes from one of the sets, or was there before. -/
theorem get_setAll_cases {m : OrderedMap κ α} {a : α}
    (h : (m.setAll l).get k = some a) : (k, a) ∈ l ∨ m.get k = some a := by
  induction l generalizing m with
  | nil => exact Or.inr h
  | cons e rest ih =>
    rw [setAll, List.foldl_cons] at h
    rcases ih h with hmem | hget
    · exact Or.inl (List.mem_cons_of_mem _ hmem)
    · rw [get_set] at hget
      split_ifs at hget with hk
      · subst hk
        obtain rfl := Option.some.inj hget
        exact Or.inl List.mem_cons_self
      · exact Or.inr hget

theorem exists_get_setAll {m : OrderedMap κ α}
    (h : k ∈ l.map Prod.fst ∨ ∃ a, m.get k = some a) : ∃ a, (m.setAll l).get k = some a := by
  induction l generalizing m with
  | nil =>
    rcases h with h | h
    · cases h
    · exact h
  | cons e rest ih =>
    rw [setAll, List.foldl_cons]
    apply ih
    by_cases hk : k = e.1
    · exact Or.inr ⟨e.2, by rw [get_set, if_pos hk]⟩
    · rcases h with h | ⟨a, ha⟩
      · rw [List.map_cons, List.mem_cons] at h
        exact Or.inl (h.resolve_left hk)
      · exact Or.inr ⟨a, by rw [get_set, if_neg hk, ha]⟩

end OrderedMap

end Library
