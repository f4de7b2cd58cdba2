import ChamaEscrow.Library.OrderedMap

/-!
# The last value under each key

Setting keys one after the other leaves, under each of them, the value it was set to last, in the
place where it was set first: `lastOfEach` of a list of values with keys.  What the keys are apart
from one another can be done apart: entries whose keys are not set stay in front (`setEach_append`),
and a property of the keys selects the same entries before and after (`filter_setEach`,
`filter_lastOfEach`).
-/

namespace Library

open OrderedMap

variable {κ α β : Type*} [DecidableEq κ]

def setEach (l es : List (κ × α)) : List (κ × α) := es.foldl (fun l e => setEntries l e.1 e.2) l

theorem entries_setAll_eq (m : OrderedMap κ α) (es : List (κ × α)) :
    (m.setAll es).entries = setEach m.entries es := by
  induction es generalizing m with
  | nil => rfl
  | cons e rest ih => exact ih (m.set e.1 e.2)

theorem setEntries_append {l l' : List (κ × α)} {k : κ} (h : k ∉ l.map Prod.fst) (a : α) :
    setEntries (l ++ l') k a = l ++ setEntries l' k a := by
  induction l with
  | nil => rfl
  | cons e rest ih =>
    obtain ⟨ke, ae⟩ := e
    rw [List.map_cons, List.mem_cons, not_or] at h
    rw [List.cons_append, setEntries, if_neg h.1, ih h.2, List.cons_append]

theorem setEach_append {l l' es : List (κ × α)} (h : ∀ e ∈ es, e.1 ∉ l.map Prod.fst) :
    setEach (l ++ l') es = l ++ setEach l' es := by
  induction es generalizing l' with
  | nil => rfl
  | cons e rest ih =>
    rw [List.forall_mem_cons] at h
    unfold setEach at ih ⊢
    rw [List.foldl_cons, List.foldl_cons, setEntries_append h.1]
    exact ih h.2

theorem filter_setEntries (p : κ → Bool) (l : List (κ × α)) (k : κ) (a : α) :
    (setEntries l k a).filter (fun e => p e.1) =
      if p k then setEntries (l.filter fun e => p e.1) k a else l.filter fun e => p e.1 := by
  induction l with
  | nil =>
    rw [setEntries, List.filter_nil, List.filter_singleton, setEntries]
    cases p k <;> rfl
  | cons e rest ih =>
    obtain ⟨ke, ae⟩ := e
    rw [setEntries]
    by_cases hk : k = ke
    · subst hk
      rw [if_pos rfl, List.filter_cons, List.filter_cons]
      split_ifs with hp
      · rw [setEntries, if_pos rfl]
      · rfl
    · rw [if_neg hk, List.filter_cons, List.filter_cons, ih]
      by_cases hke : p ke = true
      · rw [if_pos hke, if_pos hke]
        split_ifs
        · rw [setEntries, if_neg hk]
        · rfl
      · rw [if_neg hke, if_neg hke]

/-- A property of the keys selects the same entries before and after. -/
theorem filter_setEach (p : κ → Bool) (l es : List (κ × α)) :
    (setEach l es).filter (fun e => p e.1) =
      setEach (l.filter fun e => p e.1) (es.filter fun e => p e.1) := by
  induction es generalizing l with
  | nil => rfl
  | cons e rest ih =>
    have hstep : setEach l (e :: rest) = setEach (setEntries l e.1 e.2) rest := rfl
    rw [hstep, ih, filter_setEntries, List.filter_cons]
    split_ifs
    · rfl
    · rfl

theorem map_setEntries (f : α → β) (l : List (κ × α)) (k : κ) (a : α) :
    (setEntries l k a).map (Prod.map id f) = setEntries (l.map (Prod.map id f)) k (f a) := by
  induction l with
  | nil => rfl
  | cons e rest ih =>
    obtain ⟨ke, ae⟩ := e
    rw [setEntries, List.map_cons, Prod.map_apply, id, setEntries]
    split_ifs
    · rfl
    · rw [List.map_cons, ih]
      rfl

theorem map_setEach (f : α → β) (l es : List (κ × α)) :
    (setEach l es).map (Prod.map id f) =
      setEach (l.map (Prod.map id f)) (es.map (Prod.map id f)) := by
  induction es generalizing l with
  | nil => rfl
  | cons e rest ih =>
    have hstep : setEach l (e :: rest) = setEach (setEntries l e.1 e.2) rest := rfl
    rw [hstep, ih, map_setEntries]
    rfl

/-! ### Values with keys -/

def lastOfEach (key : α → κ) (l : List α) : List α :=
  (setEach [] (l.map fun a => (key a, a))).map Prod.snd

def Filed (key : α → κ) (l : List (κ × α)) : Prop := ∀ e ∈ l, e.1 = key e.2

variable {key : α → κ} {l : List (κ × α)}

theorem filed_setEntries (h : Filed key l) (a : α) : Filed key (setEntries l (key a) a) := by
  intro e he
  induction l with
  | nil =>
    rw [setEntries, List.mem_singleton] at he
    rw [he]
  | cons b rest ih =>
    obtain ⟨kb, ab⟩ := b
    have hrest : Filed key rest := fun e he => h e (List.mem_cons_of_mem _ he)
    rw [setEntries] at he
    split_ifs at he
    · rcases List.mem_cons.mp he with rfl | he
      · rfl
      · exact hrest e he
    · rcases List.mem_cons.mp he with rfl | he
      · exact h _ List.mem_cons_self
      · exact ih hrest he

theorem filed_setEach (h : Filed key l) (as : List α) :
    Filed key (setEach l (as.map fun a => (key a, a))) := by
  induction as generalizing l with
  | nil => exact h
  | cons a rest ih => exact ih (filed_setEntries h a)

theorem mem_setEntries {k : κ} {a : α} {e : κ × α}
    (h : e ∈ setEntries l k a) : e = (k, a) ∨ e ∈ l := by
  induction l with
  | nil =>
    rw [setEntries, List.mem_singleton] at h
    exact Or.inl h
  | cons b rest ih =>
    rw [setEntries] at h
    split_ifs at h
    · exact (List.mem_cons.mp h).imp_right (List.mem_cons_of_mem _)
    · rcases List.mem_cons.mp h with rfl | h
      · exact Or.inr List.mem_cons_self
      · exact (ih h).imp_right (List.mem_cons_of_mem _)

theorem mem_setEach {l es : List (κ × α)} {e : κ × α} (h : e ∈ setEach l es) : e ∈ es ∨ e ∈ l := by
  induction es generalizing l with
  | nil => exact Or.inr h
  | cons b rest ih =>
    have hstep : e ∈ setEach (setEntries l b.1 b.2) rest := h
    rcases ih hstep with hrest | hset
    · exact Or.inl (List.mem_cons_of_mem _ hrest)
    · rcases mem_setEntries hset with rfl | hl
      · exact Or.inl List.mem_cons_self
      · exact Or.inr hl

theorem mem_lastOfEach {l : List α} {a : α} (h : a ∈ lastOfEach key l) : a ∈ l := by
  obtain ⟨e, he, rfl⟩ := List.mem_map.mp h
  rcases mem_setEach he with hmem | hmem
  · obtain ⟨b, hb, rfl⟩ := List.mem_map.mp hmem
    exact hb
  · cases hmem

theorem nodup_lastOfEach (key : α → κ) (l : List α) : ((lastOfEach key l).map key).Nodup := by
  have hfiled : Filed key (setEach [] (l.map fun a => (key a, a))) :=
    filed_setEach (fun e he => by cases he) l
  have hkeys : (lastOfEach key l).map key =
      (setEach [] (l.map fun a => (key a, a))).map Prod.fst := by
    unfold lastOfEach
    rw [List.map_map]
    refine List.map_congr_left fun e he => ?_
    exact (hfiled e he).symm
  have hentries := entries_setAll_eq (OrderedMap.empty : OrderedMap κ α)
    (l.map fun a => (key a, a))
  rw [hkeys]
  exact hentries ▸ (OrderedMap.setAll .empty (l.map fun a => (key a, a))).nodup

theorem filter_lastOfEach (p : κ → Bool) (l : List α) :
    (lastOfEach key l).filter (fun a => p (key a)) =
      lastOfEach key (l.filter fun a => p (key a)) := by
  have hfiled : Filed key (setEach [] (l.map fun a => (key a, a))) :=
    filed_setEach (fun e he => by cases he) l
  have hselect : (setEach [] (l.map fun a => (key a, a))).filter (fun e => p (key e.2)) =
      (setEach [] (l.map fun a => (key a, a))).filter fun e => p e.1 := by
    refine List.filter_congr fun e he => ?_
    rw [hfiled e he]
  unfold lastOfEach
  rw [List.filter_map, Function.comp_def, hselect, filter_setEach, List.filter_nil,
    List.filter_map, Function.comp_def]

theorem lastOfEach_of_nodup {l : List α} (h : (l.map key).Nodup) : lastOfEach key l = l := by
  have hkeys : (((OrderedMap.empty : OrderedMap κ α).entries
      ++ l.map fun a => (key a, a)).map Prod.fst).Nodup := by
    rw [OrderedMap.empty, List.nil_append, List.map_map]
    exact h
  have hentries := entries_setAll (OrderedMap.empty : OrderedMap κ α) hkeys
  rw [entries_setAll_eq] at hentries
  unfold lastOfEach
  have hset : setEach [] (l.map fun a => (key a, a)) = l.map fun a => (key a, a) := hentries
  rw [hset, List.map_map, Function.comp_def, List.map_id']

end Library
