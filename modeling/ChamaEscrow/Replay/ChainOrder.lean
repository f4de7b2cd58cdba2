import ChamaEscrow.Engine.Sort
import ChamaEscrow.Library.Precedes
import Mathlib.Data.List.TakeWhile

/-!
# The order of a replay

What `sortEventChain` (`event-parser.ts`) makes of the events of one read.  The chain holds all of
them, in an order that follows the references among state events; the auxiliary ones go where their
dates and the passes over stalled requests and linked proofs put them.

* `nextState_ready`, `placeStates_causal`: a round places an event whose predecessor was placed, as
  long as the references have no cycle.
* `Rearranged`: what the insertion and the two passes keep, the events and the order of the state
  events.
-/

namespace ChamaEscrow

open Js Library

def DistinctIds (events : List ParsedEscrowEvent) : Prop :=
  (events.map ParsedEscrowEvent.id).Nodup

def Refers (events : List ParsedEscrowEvent) (a b : ParsedEscrowEvent) : Prop :=
  a ∈ events ∧ b ∈ events ∧ truthyKey a.prevEventId = some b.id

def Acyclic (events : List ParsedEscrowEvent) : Prop :=
  ∀ e, ¬ Relation.TransGen (Refers events) e e

variable {events remaining all all' : List ParsedEscrowEvent} {a b c e m : ParsedEscrowEvent}

theorem Refers.mono (h : Refers remaining a b) (hsub : remaining ⊆ events) : Refers events a b :=
  ⟨hsub h.1, hsub h.2.1, h.2.2⟩

theorem Acyclic.mono (h : Acyclic events) (hsub : remaining ⊆ events) : Acyclic remaining := by
  intro e hcycle
  exact h e (Relation.TransGen.mono (fun _ _ hab => Refers.mono hab hsub) e e hcycle)

theorem Acyclic.of_rank (rank : ParsedEscrowEvent → ℕ)
    (hrank : ∀ a b, Refers events a b → rank b < rank a) : Acyclic events := by
  suffices ∀ a b, Relation.TransGen (Refers events) a b → rank b < rank a from
    fun e hcycle => lt_irrefl _ (this e e hcycle)
  intro a b hpath
  induction hpath with
  | single h => exact hrank _ _ h
  | tail _ h ih => exact (hrank _ _ h).trans ih

theorem DistinctIds.nodup (h : DistinctIds events) : events.Nodup := List.Nodup.of_map _ h

theorem DistinctIds.inj (h : DistinctIds events) (ha : a ∈ events) (hb : b ∈ events)
    (hid : a.id = b.id) : a = b :=
  List.inj_on_of_nodup_map h ha hb hid

theorem DistinctIds.filter (h : DistinctIds events) (p : ParsedEscrowEvent → Bool) :
    DistinctIds (events.filter p) :=
  h.sublist (List.filter_sublist.map _)

theorem DistinctIds.perm (h : DistinctIds events) (hperm : all.Perm events) : DistinctIds all :=
  (hperm.map ParsedEscrowEvent.id).nodup_iff.mpr h

/-! ### One round -/

theorem isReady_iff :
    isReady remaining e = true ↔ ∀ b ∈ remaining, truthyKey e.prevEventId ≠ some b.id := by
  unfold isReady
  cases truthyKey e.prevEventId with
  | none => simp
  | some id =>
    simp only [Option.all_some, Bool.not_eq_true', List.any_eq_false, decide_eq_true_eq, ne_eq,
      Option.some.injEq]
    exact forall₂_congr fun b _ => not_congr eq_comm

theorem exists_refers_of_not_isReady (he : e ∈ remaining) (h : isReady remaining e ≠ true) :
    ∃ b, Refers remaining e b := by
  rw [Ne, isReady_iff] at h
  push Not at h
  obtain ⟨b, hb, hid⟩ := h
  exact ⟨b, he, hb, hid⟩

theorem mem_sortByCompare : e ∈ sortByCompare events ↔ e ∈ events :=
  List.mem_insertionSort _

def readyEvents (remaining : List ParsedEscrowEvent) : List ParsedEscrowEvent :=
  sortByCompare (remaining.filter (isReady remaining))

theorem mem_readyEvents :
    e ∈ readyEvents remaining ↔ e ∈ remaining ∧ isReady remaining e = true := by
  rw [readyEvents, mem_sortByCompare, List.mem_filter]

theorem nextState_cases (h : nextState remaining = some m) :
    (m ∈ readyEvents remaining ∧
      (m.kind = .create ∨ ∀ c ∈ readyEvents remaining, c.kind ≠ .create)) ∨
    (readyEvents remaining = [] ∧ m ∈ remaining) := by
  change ((((readyEvents remaining).find? isCreate).or (readyEvents remaining).head?).or _) = _ at h
  cases hcreate : (readyEvents remaining).find? isCreate with
  | some c =>
    rw [hcreate, Option.some_or, Option.some_or] at h
    obtain rfl := Option.some.inj h
    exact Or.inl ⟨List.mem_of_find?_eq_some hcreate,
      Or.inl (of_decide_eq_true (List.find?_some (p := isCreate) hcreate))⟩
  | none =>
    have hno : ∀ c ∈ readyEvents remaining, c.kind ≠ .create := by
      intro c hc hkind
      exact List.find?_eq_none.mp hcreate c hc (decide_eq_true hkind)
    rw [hcreate, Option.none_or] at h
    cases hhead : (readyEvents remaining).head? with
    | some r =>
      rw [hhead, Option.some_or] at h
      obtain rfl := Option.some.inj h
      exact Or.inl ⟨List.mem_of_mem_head? hhead, Or.inr hno⟩
    | none =>
      rw [hhead, Option.none_or] at h
      exact Or.inr ⟨List.head?_eq_none_iff.mp hhead,
        mem_sortByCompare.mp (List.mem_of_mem_head? h)⟩

theorem nextState_mem (h : nextState remaining = some m) : m ∈ remaining := by
  rcases nextState_cases h with ⟨hready, -⟩ | ⟨-, hm⟩
  · exact (mem_readyEvents.mp hready).1
  · exact hm

theorem nextState_eq_none (h : nextState remaining = none) : remaining = [] := by
  unfold nextState at h
  rw [Option.or_eq_none_iff, List.head?_eq_none_iff] at h
  refine List.eq_nil_iff_forall_not_mem.mpr fun e he => ?_
  have hsorted := mem_sortByCompare.mpr he
  rw [h.2] at hsorted
  cases hsorted

/-- Without cycles a round places an event whose predecessor is not left. -/
theorem nextState_ready (hacyclic : Acyclic remaining) (h : nextState remaining = some m) :
    isReady remaining m = true := by
  rcases nextState_cases h with ⟨hready, -⟩ | ⟨hnone, hm⟩
  · exact (mem_readyEvents.mp hready).2
  · obtain ⟨source, hsource, hfree⟩ := exists_source hacyclic (List.ne_nil_of_mem hm)
    have hready : isReady remaining source = true := by
      by_contra hnot
      obtain ⟨b, hb⟩ := exists_refers_of_not_isReady hsource hnot
      exact hfree b hb.2.1 hb
    have hmem := mem_readyEvents.mpr ⟨hsource, hready⟩
    rw [hnone] at hmem
    cases hmem

theorem nextState_create (h : nextState remaining = some m) (hm : m.kind ≠ .create)
    (hc : c ∈ remaining) (hcreate : c.kind = .create) : ∃ b, Refers remaining c b := by
  refine exists_refers_of_not_isReady hc fun hready => ?_
  have hmem := mem_readyEvents.mpr ⟨hc, hready⟩
  rcases nextState_cases h with ⟨-, hkind | hno⟩ | ⟨hnone, -⟩
  · exact hm hkind
  · exact hno c hmem hcreate
  · rw [hnone] at hmem
    cases hmem

/-! ### All rounds -/

def afterRound (remaining : List ParsedEscrowEvent) (m : ParsedEscrowEvent) :
    List ParsedEscrowEvent :=
  remaining.filter fun e => e.id ≠ m.id

theorem DistinctIds.afterRound (h : DistinctIds remaining) (m : ParsedEscrowEvent) :
    DistinctIds (afterRound remaining m) :=
  h.filter _

theorem placeStates_succ (rounds : ℕ) (h : nextState remaining = some m) :
    placeStates (rounds + 1) remaining = m :: placeStates rounds (afterRound remaining m) := by
  rw [placeStates, h]
  rfl

theorem afterRound_perm (hids : DistinctIds remaining) (hm : m ∈ remaining) :
    (m :: afterRound remaining m).Perm remaining :=
  perm_cons_filter_ne hids hm

theorem length_afterRound (hids : DistinctIds remaining) (hm : m ∈ remaining) :
    (afterRound remaining m).length + 1 = remaining.length :=
  (afterRound_perm hids hm).length_eq

theorem placeStates_nil (rounds : ℕ) : placeStates rounds [] = [] := by
  cases rounds with
  | zero => rfl
  | succ rounds => rfl

variable {rounds : ℕ}

theorem placeStates_done (hids : DistinctIds remaining) (hrounds : remaining.length ≤ rounds) :
    placeStates rounds remaining = placeStates remaining.length remaining := by
  induction rounds generalizing remaining with
  | zero => rw [Nat.le_zero.mp hrounds]
  | succ rounds ih =>
    cases hnext : nextState remaining with
    | none => rw [nextState_eq_none hnext, placeStates_nil, placeStates_nil]
    | some m =>
      have hlength := length_afterRound hids (nextState_mem hnext)
      rw [← hlength, placeStates_succ _ hnext, placeStates_succ _ hnext]
      congr 1
      exact ih (hids.afterRound m) (by omega)

theorem placeStates_perm (hids : DistinctIds remaining)
    (hrounds : remaining.length ≤ rounds) : (placeStates rounds remaining).Perm remaining := by
  induction rounds generalizing remaining with
  | zero =>
    rw [List.eq_nil_of_length_eq_zero (Nat.le_zero.mp hrounds)]
    exact List.Perm.refl []
  | succ rounds ih =>
    cases hnext : nextState remaining with
    | none =>
      rw [nextState_eq_none hnext, placeStates_nil]
    | some m =>
      have hlength := length_afterRound hids (nextState_mem hnext)
      rw [placeStates_succ _ hnext]
      exact ((ih (hids.afterRound m) (by omega)).cons m).trans
        (afterRound_perm hids (nextState_mem hnext))

theorem placeStates_causal (hids : DistinctIds remaining)
    (hrounds : remaining.length ≤ rounds) (hacyclic : Acyclic remaining)
    (hrefers : Refers remaining a b) : Precedes (placeStates rounds remaining) b a := by
  induction rounds generalizing remaining with
  | zero =>
    have hnil := List.eq_nil_of_length_eq_zero (Nat.le_zero.mp hrounds)
    exact absurd (hnil ▸ hrefers.1) List.not_mem_nil
  | succ rounds ih =>
    obtain ⟨ha, hb, hid⟩ := hrefers
    cases hnext : nextState remaining with
    | none => exact absurd (nextState_eq_none hnext ▸ ha) List.not_mem_nil
    | some m =>
      have hm := nextState_mem hnext
      have hlength := length_afterRound hids hm
      have hsub : afterRound remaining m ⊆ remaining := List.filter_subset_self _
      have hkept {e : ParsedEscrowEvent} (he : e ∈ remaining) (hne : e ≠ m) :
          e ∈ afterRound remaining m :=
        List.mem_filter.mpr ⟨he, decide_eq_true fun h => hne (hids.inj he hm h)⟩
      have ham : a ≠ m := by
        rintro rfl
        exact isReady_iff.mp (nextState_ready hacyclic hnext) b hb hid
      rw [placeStates_succ _ hnext, precedes_cons]
      by_cases hbm : b = m
      · have hperm : (placeStates rounds (afterRound remaining m)).Perm _ :=
          placeStates_perm (hids.afterRound m) (by omega)
        exact Or.inl ⟨hbm, hperm.mem_iff.mpr (hkept ha ham)⟩
      · exact Or.inr (ih (hids.afterRound m) (by omega) (hacyclic.mono hsub)
          ⟨hkept ha ham, hkept hb hbm, hid⟩)

/-- An event placed before a CREATE is another CREATE, unless that one still waits for its
predecessor. -/
theorem placeStates_create (hids : DistinctIds remaining)
    (hrounds : remaining.length ≤ rounds) (hc : c.kind = .create) (he : e.kind ≠ .create)
    (hprecedes : Precedes (placeStates rounds remaining) e c) :
    ∃ b, Refers remaining c b ∧ ¬ Precedes (placeStates rounds remaining) b e := by
  induction rounds generalizing remaining with
  | zero => exact absurd hprecedes not_precedes_nil
  | succ rounds ih =>
    cases hnext : nextState remaining with
    | none =>
      rw [nextState_eq_none hnext, placeStates_nil] at hprecedes
      exact absurd hprecedes not_precedes_nil
    | some m =>
      have hm := nextState_mem hnext
      have hlength := length_afterRound hids hm
      have hsub : afterRound remaining m ⊆ remaining := List.filter_subset_self _
      have hperm : (placeStates rounds (afterRound remaining m)).Perm _ :=
        placeStates_perm (hids.afterRound m) (by omega)
      have hgone : m ∉ placeStates rounds (afterRound remaining m) := by
        rw [hperm.mem_iff, afterRound, List.mem_filter]
        exact fun h => of_decide_eq_true h.2 rfl
      rw [placeStates_succ _ hnext] at hprecedes ⊢
      rcases precedes_cons.mp hprecedes with ⟨rfl, hmem⟩ | hlater
      · obtain ⟨b, hb⟩ := nextState_create hnext he (hsub (hperm.mem_iff.mp hmem)) hc
        refine ⟨b, hb, fun h => ?_⟩
        rcases precedes_cons.mp h with ⟨-, hself⟩ | h
        · exact hgone hself
        · exact hgone h.right
      · obtain ⟨b, hb, hnot⟩ := ih (hids.afterRound m) (by omega) hlater
        refine ⟨b, hb.mono hsub, fun h => ?_⟩
        rcases precedes_cons.mp h with ⟨rfl, -⟩ | h
        · exact of_decide_eq_true (List.mem_filter.mp hb.2.1).2 rfl
        · exact hnot h

theorem stateEvents_eq (hids : DistinctIds events) :
    stateEvents events = events.filter fun e => !isAux e := by
  have hkeys : ((events.filter fun e => !isAux e).map fun e => (e.id, e)).map Prod.fst =
      (events.filter fun e => !isAux e).map ParsedEscrowEvent.id := by
    rw [List.map_map]
    rfl
  have hset := OrderedMap.entries_setAll (OrderedMap.empty : OrderedMap String ParsedEscrowEvent)
    (l := (events.filter fun e => !isAux e).map fun e => (e.id, e))
    (by
      rw [OrderedMap.empty, List.nil_append, hkeys]
      exact hids.filter _)
  rw [OrderedMap.setAll, List.foldl_map] at hset
  rw [stateEvents, hset, OrderedMap.empty, List.nil_append, List.map_map]
  exact List.map_id' _

/-! ### Auxiliary events -/

structure Rearranged (all all' : List ParsedEscrowEvent) : Prop where
  perm : all'.Perm all
  states : (all'.filter fun e => !isAux e) = all.filter fun e => !isAux e

theorem Rearranged.refl (all : List ParsedEscrowEvent) : Rearranged all all :=
  ⟨List.Perm.refl all, rfl⟩

theorem Rearranged.trans (h : Rearranged events all) (h' : Rearranged all all') :
    Rearranged events all' :=
  ⟨h'.perm.trans h.perm, h'.states.trans h.states⟩

theorem Rearranged.foldl {pass : List ParsedEscrowEvent → ParsedEscrowEvent →
      List ParsedEscrowEvent} {l : List ParsedEscrowEvent} (hl : ∀ e ∈ l, e ∈ all)
    (hpass : ∀ all', Rearranged all all' → ∀ e ∈ l, e ∈ all' → Rearranged all' (pass all' e)) :
    Rearranged all (l.foldl pass all) := by
  suffices ∀ all', Rearranged all all' → Rearranged all (l.foldl pass all') from
    this all (Rearranged.refl all)
  induction l with
  | nil => exact fun all' h => h
  | cons e l ih =>
    intro all' h
    rw [List.foldl_cons]
    refine ih (fun e' he' => hl e' (List.mem_cons_of_mem e he')) ?_ _ ?_
    · exact fun all' h e' he' => hpass all' h e' (List.mem_cons_of_mem e he')
    · have he := h.perm.mem_iff.mpr (hl e List.mem_cons_self)
      exact h.trans (hpass all' h e List.mem_cons_self he)

theorem Rearranged.precedes (h : Rearranged all all') (ha : isAux a = false)
    (hb : isAux b = false) : Precedes all' a b ↔ Precedes all a b := by
  have hfilter (l : List ParsedEscrowEvent) :
      Precedes (l.filter fun e => !isAux e) a b ↔ Precedes l a b := by
    rw [precedes_filter, ha, hb]
    simp
  rw [← hfilter all, ← hfilter all', h.states]

theorem insertAux_eq (all : List ParsedEscrowEvent) (m : ParsedEscrowEvent) :
    ∃ l₁ l₂, all = l₁ ++ l₂ ∧ insertAux all m = l₁ ++ m :: l₂ := by
  unfold insertAux
  dsimp only
  set later : ParsedEscrowEvent → Bool := fun e => !decide (e.timestamp ≤ m.timestamp)
  set before := (all.reverse.dropWhile later).reverse
  set after := (all.reverse.takeWhile later).reverse
  have hall : all = before ++ after := by
    rw [← List.reverse_append, List.takeWhile_append_dropWhile, List.reverse_reverse]
  have htake : all.take (all.length - after.length) = before := by
    have hlength := congrArg List.length hall
    rw [List.length_append] at hlength
    have hcut : all.length - after.length = before.length := by omega
    rw [hcut]
    exact (congrArg (List.take before.length) hall).trans List.take_left
  rw [htake]
  split_ifs with hbefore
  · exact ⟨all, [], (List.append_nil all).symm, rfl⟩
  · exact ⟨before, after, hall, rfl⟩

theorem insertAux_perm (all : List ParsedEscrowEvent) (m : ParsedEscrowEvent) :
    (insertAux all m).Perm (m :: all) := by
  obtain ⟨l₁, l₂, hall, hinsert⟩ := insertAux_eq all m
  rw [hinsert, hall]
  exact List.perm_middle

theorem insertAux_states (hm : isAux m = true) :
    ((insertAux all m).filter fun e => !isAux e) = all.filter fun e => !isAux e := by
  obtain ⟨l₁, l₂, hall, hinsert⟩ := insertAux_eq all m
  rw [hinsert, hall, List.filter_append, List.filter_append,
    List.filter_cons_of_neg (by simp [hm])]

theorem foldl_insertAux {aux : List ParsedEscrowEvent} (haux : ∀ e ∈ aux, isAux e = true)
    (all : List ParsedEscrowEvent) :
    (aux.foldl insertAux all).Perm (aux ++ all) ∧
      ((aux.foldl insertAux all).filter fun e => !isAux e) = all.filter fun e => !isAux e := by
  induction aux generalizing all with
  | nil => exact ⟨List.Perm.refl all, rfl⟩
  | cons m aux ih =>
    obtain ⟨hperm, hstates⟩ := ih (fun e he => haux e (List.mem_cons_of_mem m he)) (insertAux all m)
    rw [List.foldl_cons]
    refine ⟨hperm.trans ?_, hstates.trans (insertAux_states (haux m List.mem_cons_self))⟩
    exact ((insertAux_perm all m).append_left aux).trans List.perm_middle

theorem moveBefore_eq (hids : DistinctIds all) (hm : m ∈ all) (hc : c ∈ all) (hne : m ≠ c) :
    ∃ l₁ l₂, (all.filter fun e => e.id ≠ m.id) = l₁ ++ c :: l₂ ∧
      moveBefore c all m = l₁ ++ m :: c :: l₂ := by
  unfold moveBefore
  dsimp only
  rw [eraseP_eq_filter_ne hids m.id]
  set rest := all.filter fun e => e.id ≠ m.id
  have hrest : c ∈ rest :=
    List.mem_filter.mpr ⟨hc, decide_eq_true fun h => hne (hids.inj hm hc h.symm)⟩
  have hsplit : rest = rest.takeWhile (fun e => e.id ≠ c.id) ++
      rest.dropWhile fun e => e.id ≠ c.id := List.takeWhile_append_dropWhile.symm
  cases hdrop : rest.dropWhile fun e => e.id ≠ c.id with
  | nil =>
    have hall := List.dropWhile_eq_nil_iff.mp hdrop c hrest
    exact absurd rfl (of_decide_eq_true hall)
  | cons d l₂ =>
    have hd : d = c := by
      have hhead := List.head?_dropWhile_not (p := fun e : ParsedEscrowEvent => e.id ≠ c.id) rest
      rw [hdrop] at hhead
      have hmem : d ∈ rest := (List.dropWhile_subset _) (hdrop ▸ List.mem_cons_self)
      refine hids.inj (List.mem_of_mem_filter hmem) hc ?_
      simpa using hhead
    refine ⟨rest.takeWhile fun e => e.id ≠ c.id, l₂, ?_, ?_⟩
    · rw [hdrop, hd] at hsplit
      exact hsplit
    · rw [hd]

theorem Rearranged.moveBefore (hids : DistinctIds all) (hm : m ∈ all) (haux : isAux m = true)
    (hc : c ∈ all) (hstate : isAux c = false) : Rearranged all (moveBefore c all m) := by
  have hne : m ≠ c := by
    rintro rfl
    rw [haux] at hstate
    cases hstate
  obtain ⟨l₁, l₂, hrest, hmove⟩ := moveBefore_eq hids hm hc hne
  rw [hmove]
  refine ⟨?_, ?_⟩
  · refine (@List.perm_middle _ m l₁ _).trans ?_
    rw [← hrest]
    exact perm_cons_filter_ne hids hm
  · have hskip : ((l₁ ++ m :: c :: l₂).filter fun e => !isAux e) =
        (l₁ ++ c :: l₂).filter fun e => !isAux e := by
      rw [List.filter_append, List.filter_append, List.filter_cons_of_neg (by simp [haux])]
    rw [hskip, ← hrest, List.filter_filter]
    refine List.filter_congr fun e he => ?_
    cases hkind : isAux e with
    | true => rfl
    | false =>
      have hid : e.id ≠ m.id := by
        intro hid
        rw [hids.inj he hm hid, haux] at hkind
        cases hkind
      simp [hid]

theorem isAux_of_settlement (h : e.kind = .settlement) : isAux e = true := by
  simp [isAux, h]

theorem Rearranged.gatherPayouts (hids : DistinctIds all) (hc : c ∈ all)
    (hkind : c.kind = .settlementStalled) : Rearranged all (gatherPayouts all c) := by
  have hstate : isAux c = false := by simp [isAux, hkind]
  have hprior {e : ParsedEscrowEvent} (he : e ∈ (all.filter fun e =>
      e.kind = .settlement && e.timestamp ≤ c.timestamp).insertionSort fun a b =>
        earlier a b = true) : e ∈ all ∧ isAux e = true := by
    rw [List.mem_insertionSort, List.mem_filter, Bool.and_eq_true, decide_eq_true_iff] at he
    exact ⟨he.1, isAux_of_settlement he.2.1⟩
  refine Rearranged.foldl (fun e he => (hprior he).1) fun all' h e he hmem => ?_
  exact Rearranged.moveBefore (hids.perm h.perm) hmem (hprior he).2 (h.perm.mem_iff.mpr hc) hstate

def linkedProof (complete : ParsedEscrowEvent) : Option String :=
  truthyKey ((complete.raw.tags.find? fun tag => tag.head? = some "settlement").bind
    fun tag => tag[1]?)

def LinksTo (complete proof : ParsedEscrowEvent) : Prop :=
  complete.kind = .complete ∧ proof.kind = .settlement ∧ linkedProof complete = some proof.id

def isLinkedTo (complete e : ParsedEscrowEvent) : Bool :=
  some e.id = linkedProof complete && e.kind = .settlement

theorem isLinkedTo_iff (hkind : c.kind = .complete) : isLinkedTo c e = true ↔ LinksTo c e := by
  rw [isLinkedTo, Bool.and_eq_true, decide_eq_true_iff, decide_eq_true_iff]
  exact ⟨fun h => ⟨hkind, h.2, h.1.symm⟩, fun h => ⟨h.2.2.symm, h.2.1⟩⟩

theorem gatherProof_eq (all : List ParsedEscrowEvent) (c : ParsedEscrowEvent) :
    gatherProof all c = match all.find? (isLinkedTo c) with
      | some proof => moveBefore c all proof
      | none => all :=
  rfl

theorem gatherProof_cases (hkind : c.kind = .complete) :
    (∃ proof ∈ all, LinksTo c proof ∧ gatherProof all c = moveBefore c all proof) ∨
      ((∀ proof ∈ all, ¬ LinksTo c proof) ∧ gatherProof all c = all) := by
  rw [gatherProof_eq]
  cases hfind : all.find? (isLinkedTo c) with
  | some proof =>
    exact Or.inl ⟨proof, List.mem_of_find?_eq_some hfind,
      (isLinkedTo_iff hkind).mp (List.find?_some hfind), rfl⟩
  | none =>
    refine Or.inr ⟨fun proof hmem hnames => ?_, rfl⟩
    exact List.find?_eq_none.mp hfind proof hmem ((isLinkedTo_iff hkind).mpr hnames)

theorem Rearranged.gatherProof (hids : DistinctIds all) (hc : c ∈ all)
    (hkind : c.kind = .complete) : Rearranged all (gatherProof all c) := by
  rcases @gatherProof_cases all _ hkind with ⟨proof, hmem, hnames, hmove⟩ | ⟨-, hsame⟩
  · rw [hmove]
    have hstate : isAux c = false := by simp [isAux, hkind]
    exact Rearranged.moveBefore hids hmem (isAux_of_settlement hnames.2.1) hc hstate
  · rw [hsame]
    exact Rearranged.refl all

theorem gatherProof_precedes (hids : DistinctIds all) (hc : c ∈ all) (hkind : c.kind = .complete)
    (hm : m ∈ all) (he : isAux e = false) :
    Precedes (gatherProof all c) m e ↔
      (LinksTo c m ∧ (e = c ∨ Precedes all c e)) ∨ (¬ LinksTo c m ∧ Precedes all m e) := by
  rcases @gatherProof_cases all _ hkind with ⟨proof, hmem, hnames, hmove⟩ | ⟨hnone, hsame⟩
  · have haux := isAux_of_settlement hnames.2.1
    have hne : proof ≠ c := by
      rintro rfl
      exact absurd (hkind.symm.trans hnames.2.1) (by decide)
    have hep : e ≠ proof := by
      rintro rfl
      rw [haux] at he
      cases he
    obtain ⟨l₁, l₂, hrest, hplace⟩ := moveBefore_eq hids hmem hc hne
    have hothers : ∀ e ∈ all, decide (e.id ≠ proof.id) = true ↔ e ≠ proof := by
      intro e he
      rw [decide_eq_true_iff]
      exact not_congr ⟨hids.inj he hmem, fun h => h ▸ rfl⟩
    rw [hmove, hplace, precedes_moved hids.nodup hothers hrest]
    by_cases hmp : m = proof
    · subst hmp
      simp [hnames, hep]
    · have hnot : ¬ LinksTo c m := by
        intro h
        exact hmp (hids.inj hm hmem (Option.some.inj (h.2.2.symm.trans hnames.2.2)))
      simp [hmp, hep, hnot]
  · rw [hsame]
    simp [hnone m hm]

theorem foldl_gatherProof_precedes (hids : DistinctIds all) {completes : List ParsedEscrowEvent}
    (hall : ∀ c ∈ completes, c ∈ all ∧ c.kind = .complete) (hm : m ∈ all)
    (hnamed : ∃ c ∈ completes, LinksTo c m) :
    ∃ last ∈ completes, LinksTo last m ∧
      (∀ c ∈ completes, LinksTo c m → c = last ∨ Precedes completes c last) ∧ ∀ e, isAux e = false →
        (Precedes (completes.foldl gatherProof all) m e ↔ e = last ∨ Precedes all last e) := by
  induction completes using List.reverseRecOn with
  | nil =>
    obtain ⟨c, hc, -⟩ := hnamed
    cases hc
  | append_singleton completes c ih =>
    have hinit : ∀ c ∈ completes, c ∈ all ∧ c.kind = .complete :=
      fun c hc => hall c (List.mem_append_left _ hc)
    have hkept : Rearranged all (completes.foldl gatherProof all) :=
      Rearranged.foldl (fun e he => (hinit e he).1) fun all' h e he hmem =>
        Rearranged.gatherProof (hids.perm h.perm) hmem (hinit e he).2
    obtain ⟨hc, hkind⟩ := hall c (List.mem_append_right _ List.mem_cons_self)
    have hstate : isAux c = false := by simp [isAux, hkind]
    have hstep {e : ParsedEscrowEvent} (he : isAux e = false) :=
      gatherProof_precedes (hids.perm hkept.perm) (hkept.perm.mem_iff.mpr hc) hkind
        (hkept.perm.mem_iff.mpr hm) he
    rw [List.foldl_append, List.foldl_cons, List.foldl_nil]
    by_cases hlast : LinksTo c m
    · refine ⟨c, List.mem_append_right _ List.mem_cons_self, hlast, fun c' hc' _ => ?_,
        fun e he => ?_⟩
      · rcases List.mem_append.mp hc' with h | h
        · exact Or.inr (precedes_append.mpr (Or.inr (Or.inl ⟨h, List.mem_cons_self⟩)))
        · exact Or.inl (List.mem_singleton.mp h)
      · rw [hstep he, hkept.precedes hstate he]
        simp [hlast]
    · obtain ⟨c', hc', hnames⟩ := hnamed
      have hearlier {d : ParsedEscrowEvent} (hd : d ∈ completes ++ [c]) (hnames : LinksTo d m) :
          d ∈ completes := by
        rcases List.mem_append.mp hd with h | h
        · exact h
        · exact absurd (List.mem_singleton.mp h ▸ hnames) hlast
      obtain ⟨last, hmem, hnamed, hbefore, hiff⟩ := ih hinit ⟨c', hearlier hc' hnames, hnames⟩
      refine ⟨last, List.mem_append_left _ hmem, hnamed, fun d hd hd' => ?_, fun e he => ?_⟩
      · exact (hbefore d (hearlier hd hd') hd').imp id fun h => precedes_append.mpr (Or.inl h)
      · rw [hstep he, ← hiff e he]
        simp [hlast]

/-! ### The whole sort -/

def gatheredChain (events : List ParsedEscrowEvent) : List ParsedEscrowEvent :=
  let interleaved := (events.filter isAux).foldl insertAux
    (placeStates (stateEvents events).length (stateEvents events))
  (interleaved.filter fun e => e.kind = .settlementStalled).foldl gatherPayouts interleaved

theorem sortEventChain_eq (events : List ParsedEscrowEvent) :
    sortEventChain events =
      ((gatheredChain events).filter fun e => e.kind = .complete).foldl gatherProof
        (gatheredChain events) :=
  rfl

theorem gatheredChain_sorted (hids : DistinctIds events) :
    (gatheredChain events).Perm events ∧
      ((gatheredChain events).filter fun e => !isAux e) =
        placeStates (stateEvents events).length (stateEvents events) := by
  have hstates := stateEvents_eq hids
  have hplaced : (placeStates (stateEvents events).length (stateEvents events)).Perm
      (events.filter fun e => !isAux e) := by
    rw [hstates]
    exact placeStates_perm (hids.filter _) le_rfl
  obtain ⟨hperm, hkept⟩ := @foldl_insertAux (events.filter isAux)
    (fun e he => (List.mem_filter.mp he).2)
    (placeStates (stateEvents events).length (stateEvents events))
  have hall := hperm.trans ((hplaced.append_left _).trans (List.filter_append_perm isAux events))
  have hpass := @Rearranged.foldl _ gatherPayouts
    (l := ((events.filter isAux).foldl insertAux (placeStates (stateEvents events).length
      (stateEvents events))).filter fun e => e.kind = .settlementStalled)
    (fun e he => (List.mem_filter.mp he).1)
    (fun all' h e he hmem => Rearranged.gatherPayouts ((hids.perm hall).perm h.perm) hmem
      (of_decide_eq_true (List.mem_filter.mp he).2))
  refine ⟨hpass.perm.trans hall, hpass.states.trans (hkept.trans ?_)⟩
  rw [List.filter_eq_self]
  intro e he
  exact (List.mem_filter.mp (hplaced.mem_iff.mp he)).2

theorem sortEventChain_rearranged (hids : DistinctIds events) :
    Rearranged (gatheredChain events) (sortEventChain events) := by
  rw [sortEventChain_eq]
  refine Rearranged.foldl (fun e he => (List.mem_filter.mp he).1) fun all' h e he hmem => ?_
  exact Rearranged.gatherProof ((hids.perm (gatheredChain_sorted hids).1).perm h.perm) hmem
    (of_decide_eq_true (List.mem_filter.mp he).2)

theorem sortEventChain_perm (hids : DistinctIds events) : (sortEventChain events).Perm events :=
  (sortEventChain_rearranged hids).perm.trans (gatheredChain_sorted hids).1

theorem sortEventChain_precedes (hids : DistinctIds events) (ha : isAux a = false)
    (hb : isAux b = false) : Precedes (sortEventChain events) a b ↔
      Precedes (placeStates (stateEvents events).length (stateEvents events)) a b := by
  rw [(sortEventChain_rearranged hids).precedes ha hb, ← (gatheredChain_sorted hids).2,
    precedes_filter, ha, hb]
  simp

theorem mem_stateEvents (hids : DistinctIds events) :
    e ∈ stateEvents events ↔ e ∈ events ∧ isAux e = false := by
  rw [stateEvents_eq hids, List.mem_filter, Bool.not_eq_true']

def chainEvent (id : String) (hid : id ≠ "") (time : ℕ) (payload : EscrowPayload)
    (prevEventId : Option String := none) (tags : List (List String) := []) :
    ParsedEscrowEvent where
  raw := {
    id
    pubkey := "author"
    createdAt := .ofInt time
    tags
    id_ne := hid
    pubkey_ne := by decide
    createdAt_ne := JsNumber.ofInt_ne_nan time }
  payload
  escrowId := "sm_chain"
  prevEventId

def cancelEvent (id : String) (hid : id ≠ "") (time : ℕ) (prevEventId : Option String) :
    ParsedEscrowEvent :=
  chainEvent id hid time (.cancel ⟨.buyer, .ofInt time⟩) prevEventId

def chatEvent (id : String) (hid : id ≠ "") (time : ℕ) : ParsedEscrowEvent :=
  chainEvent id hid time (.chat ⟨"hello", .seller, .ofInt time⟩)

/-- A reply that is dated before what it refers to, a state event and a chat message. -/
def backdatedChain : List ParsedEscrowEvent :=
  [cancelEvent "b" (by decide) 1 (some "a"), cancelEvent "a" (by decide) 2 (some "m"),
    chatEvent "m" (by decide) 3]

/-- The sort ends with the events it was given, an event after its predecessor where the references
among state events have no cycle, and the CREATE before all that was ready with it. -/
theorem sortEventChain_linearises (hids : DistinctIds events) :
    (∀ rounds, (stateEvents events).length ≤ rounds → placeStates rounds (stateEvents events) =
      placeStates (stateEvents events).length (stateEvents events)) ∧
    (sortEventChain events).Perm events ∧
    (Acyclic (stateEvents events) → ∀ a b, Refers (stateEvents events) a b →
      Precedes (sortEventChain events) b a) ∧
    ∀ create e, create.kind = .create → e.kind ≠ .create → isAux e = false →
      Precedes (sortEventChain events) e create →
        ∃ b, Refers (stateEvents events) create b ∧ ¬ Precedes (sortEventChain events) b e := by
  have hstates : DistinctIds (stateEvents events) := by
    rw [stateEvents_eq hids]
    exact hids.filter _
  have hplain {e : ParsedEscrowEvent} (he : e ∈ stateEvents events) : isAux e = false :=
    ((mem_stateEvents hids).mp he).2
  refine ⟨fun rounds => placeStates_done hstates, sortEventChain_perm hids, ?_, ?_⟩
  · intro hacyclic a b hrefers
    rw [sortEventChain_precedes hids (hplain hrefers.2.1) (hplain hrefers.1)]
    exact placeStates_causal hstates le_rfl hacyclic hrefers
  · intro create e hcreate he haux hprecedes
    rw [sortEventChain_precedes hids haux (by simp [isAux, hcreate])] at hprecedes
    obtain ⟨b, hb, hnot⟩ := placeStates_create hstates le_rfl hcreate he hprecedes
    refine ⟨b, hb, ?_⟩
    rw [sortEventChain_precedes hids (hplain hb.2.1) haux]
    exact hnot

theorem backdatedChain_acyclic : Acyclic backdatedChain := by
  refine Acyclic.of_rank (fun e => if e.id = "b" then 2 else if e.id = "a" then 1 else 0) ?_
  rintro a b ⟨ha, hb, hid⟩
  simp only [backdatedChain, List.mem_cons, List.not_mem_nil, or_false] at ha hb
  rcases ha with rfl | rfl | rfl <;> rcases hb with rfl | rfl | rfl <;>
    first | decide | exact absurd hid (by decide)

theorem backdatedChain_linearised :
    (sortEventChain backdatedChain).Perm backdatedChain ∧
      Precedes (sortEventChain backdatedChain) (cancelEvent "a" (by decide) 2 (some "m"))
        (cancelEvent "b" (by decide) 1 (some "a")) := by
  have hids : DistinctIds backdatedChain := by
    unfold DistinctIds
    decide
  obtain ⟨-, hperm, hcausal, -⟩ := sortEventChain_linearises hids
  have hsub : stateEvents backdatedChain ⊆ backdatedChain := by
    rw [stateEvents_eq hids]
    exact List.filter_subset_self _
  refine ⟨hperm, hcausal (backdatedChain_acyclic.mono hsub) _ _ ⟨?_, ?_, rfl⟩⟩
  · rw [mem_stateEvents hids]
    exact ⟨List.mem_cons_self, rfl⟩
  · rw [mem_stateEvents hids]
    exact ⟨List.mem_cons_of_mem _ List.mem_cons_self, rfl⟩

/-- A state event that refers to a chat message does not wait for it. -/
theorem backdatedChain_chat :
    DistinctIds backdatedChain ∧ Acyclic backdatedChain ∧
      Refers backdatedChain (cancelEvent "a" (by decide) 2 (some "m"))
        (chatEvent "m" (by decide) 3) ∧
      isAux (cancelEvent "a" (by decide) 2 (some "m")) = false ∧
      ¬ Precedes (sortEventChain backdatedChain) (chatEvent "m" (by decide) 3)
        (cancelEvent "a" (by decide) 2 (some "m")) := by
  refine ⟨?_, backdatedChain_acyclic, ⟨?_, ?_, rfl⟩, rfl, ?_⟩
  · unfold DistinctIds
    decide
  · exact List.mem_cons_of_mem _ List.mem_cons_self
  · exact List.mem_cons_of_mem _ (List.mem_cons_of_mem _ List.mem_cons_self)
  · intro h
    exact absurd (h.map ParsedEscrowEvent.id) (by decide +kernel)

/-- Every proof stands before the COMPLETEs that name it just when none is named by two of them. -/
theorem linked_proofs_precede_iff (hids : DistinctIds events) :
    (∀ c ∈ events, ∀ proof ∈ events, LinksTo c proof → Precedes (sortEventChain events) proof c) ↔
      ∀ c ∈ events, ∀ c' ∈ events, ∀ proof ∈ events,
        LinksTo c proof → LinksTo c' proof → c = c' := by
  obtain ⟨hperm, -⟩ := gatheredChain_sorted hids
  have hgathered := hids.perm hperm
  set completes := (gatheredChain events).filter fun e => e.kind = .complete with hcompletes
  have hmem {c : ParsedEscrowEvent} :
      c ∈ completes ↔ c ∈ events ∧ c.kind = .complete := by
    rw [hcompletes, List.mem_filter, hperm.mem_iff, decide_eq_true_iff]
  have hlast {c proof : ParsedEscrowEvent} (hc : c ∈ events) (hproof : proof ∈ events)
      (hnames : LinksTo c proof) := foldl_gatherProof_precedes hgathered (m := proof)
    (fun c hc => ⟨hperm.mem_iff.mpr (hmem.mp hc).1, (hmem.mp hc).2⟩) (hperm.mem_iff.mpr hproof)
    ⟨c, hmem.mpr ⟨hc, hnames.1⟩, hnames⟩
  have hstate {c proof : ParsedEscrowEvent} (hnames : LinksTo c proof) : isAux c = false := by
    simp [isAux, hnames.1]
  rw [sortEventChain_eq]
  constructor
  · intro hall c hc c' hc' proof hproof hnames hnames'
    obtain ⟨last, -, -, hbefore, hiff⟩ := hlast hc hproof hnames
    have his {d : ParsedEscrowEvent} (hd : d ∈ events) (hdnames : LinksTo d proof) : d = last := by
      rcases (hiff d (hstate hdnames)).mp (hall d hd proof hproof hdnames) with h | hafter
      · exact h
      · rcases hbefore d (hmem.mpr ⟨hd, hdnames.1⟩) hdnames with h | hback
        · exact h
        · exact absurd (precedes_filter.mp hback).1 (hafter.asymm hgathered.nodup)
    exact (his hc hnames).trans (his hc' hnames').symm
  · intro hone c hc proof hproof hnames
    obtain ⟨last, hin, hnames', -, hiff⟩ := hlast hc hproof hnames
    exact (hiff c (hstate hnames)).mpr
      (Or.inl (hone c hc last (hmem.mp hin).1 proof hproof hnames hnames'))

/-- A journalled payment. -/
def proofEvent : ParsedEscrowEvent :=
  chainEvent "s" (by decide) 1 (.settlement { psbt := "psbt", leaf := .coop, role := .seller })

def completeEvent (id : String) (hid : id ≠ "") (time : ℕ) : ParsedEscrowEvent :=
  chainEvent id hid time (.complete ⟨.ofInt time⟩) none [["settlement", "s"]]

/-- A payment that both parties declare the trade complete with. -/
def twiceCompletedChain : List ParsedEscrowEvent :=
  [proofEvent, completeEvent "k" (by decide) 2, completeEvent "l" (by decide) 3]

/-- The second COMPLETE takes the proof away from the first. -/
theorem twiceCompletedChain_proof :
    DistinctIds twiceCompletedChain ∧ LinksTo (completeEvent "k" (by decide) 2) proofEvent ∧
      ¬ Precedes (sortEventChain twiceCompletedChain) proofEvent
        (completeEvent "k" (by decide) 2) := by
  refine ⟨?_, ⟨rfl, rfl, ?_⟩, ?_⟩
  · unfold DistinctIds
    decide
  · decide
  · intro h
    exact absurd (h.map ParsedEscrowEvent.id) (by decide +kernel)

/-- With one COMPLETE the proof stays before it. -/
theorem onceCompletedChain_proof :
    Precedes (sortEventChain [completeEvent "k" (by decide) 1, proofEvent]) proofEvent
      (completeEvent "k" (by decide) 1) := by
  have hids : DistinctIds [completeEvent "k" (by decide) 1, proofEvent] := by
    unfold DistinctIds
    decide
  refine (linked_proofs_precede_iff hids).mpr ?_ _ List.mem_cons_self _
    (List.mem_cons_of_mem _ List.mem_cons_self) ⟨rfl, rfl, by decide⟩
  have hone {c : ParsedEscrowEvent} (hc : c ∈ [completeEvent "k" (by decide) 1, proofEvent])
      (hkind : c.kind = .complete) : c = completeEvent "k" (by decide) 1 := by
    rcases List.mem_pair.mp hc with rfl | rfl
    · rfl
    · exact absurd hkind (by decide)
  exact fun c hc c' hc' _ _ h h' => (hone hc h.1).trans (hone hc' h'.1).symm

end ChamaEscrow
