import ChamaEscrow.Client.PreparedInvoice
import Mathlib.Data.List.Induction
import Mathlib.Data.List.Nodup

/-!
# What becomes of a prepared invoice

Two facts about every run of the module, whatever its clock reads.

* `Sound`: every entry is the current one, was taken by one adoption, or is reported abandoned.
* `Advance`: nothing that was settled, answered or superseded becomes undone.
-/

namespace ChamaEscrow.PreparedInvoice

/-! ### What became of every entry -/

variable {input : AdoptInput}

variable {reply : Option String}

section Sound

variable {S G : Type} {s s' : PreparedInvoices S G} {now : ℤ}

open PreparedInvoices Relation

/-- An entry that was taken: the adoption waits for it, has its invoice, or has let go of it. -/
def Prepared.Answered (entry : Prepared S G) : Option (Option String) → Prop
  | none => entry.Quiet
  | some (some bolt11) => entry.Adopted bolt11
  | some none => entry.Dropped

/-- Every entry is the current one, was taken by one adoption, or is reported abandoned. -/
structure Sound (s : PreparedInvoices S G) : Prop where
  held : ∀ id, s.current = some id → ∃ entry, s.entries[id]? = some entry ∧ entry.Quiet
  apart : ∀ id, s.current = some id → id ∉ s.takenIds
  taken : ∀ (k : ℕ) adoption, s.adoptions[k]? = some adoption →
    ∃ entry, s.entries[adoption.entry]? = some entry ∧ entry.fits adoption.input = true ∧
      entry.Answered adoption.answer
  once : s.takenIds.Nodup
  dropped : ∀ (id : ℕ) entry, s.entries[id]? = some entry → s.current ≠ some id →
    id ∉ s.takenIds → entry.Dropped

theorem get_modify {α : Type} {l : List α} {i j : ℕ} {f : α → α} {a : α} (h : l[j]? = some a) :
    (l.modify i f)[j]? = some (if i = j then f a else a) := by
  rw [List.getElem?_modify, h]
  rfl

theorem of_get_modify {α : Type} {l : List α} {i j : ℕ} {f : α → α} {b : α}
    (h : (l.modify i f)[j]? = some b) : ∃ a, l[j]? = some a ∧ b = if i = j then f a else a := by
  rw [List.getElem?_modify] at h
  obtain ⟨a, ha, rfl⟩ := Option.map_eq_some_iff.mp h
  exact ⟨a, ha, rfl⟩

theorem fits_of_core {entry entry' : Prepared S G} (h : entry'.core = entry.core)
    (input : AdoptInput) : entry'.fits input = entry.fits input := by
  simp only [Prepared.core, Prod.mk.injEq] at h
  obtain ⟨hterms, hstarted, hexpires, -⟩ := h
  unfold Prepared.fits
  rw [hterms, hstarted, hexpires]

variable {entry : Prepared S G}

theorem Prepared.Quiet.giveUp (h : entry.Quiet) : entry.giveUp.Dropped := by
  have hrelay : entry.giveUp.relay = { entry.relay with closed := true, buffered := [] } := by
    have hattached : ¬ entry.relay.attached = true := by simp [h.detached]
    show entry.relay.close = _
    unfold EventRelay.close
    rw [if_neg hattached]
  exact ⟨List.mem_append_right _ List.mem_cons_self, by rw [hrelay, h.detached], by rw [hrelay],
    by rw [hrelay, h.unheard]⟩

theorem Prepared.Quiet.attach (h : entry.Quiet) {bolt11 : String}
    (hmade : entry.invoice = .made bolt11) : entry.attach.Adopted bolt11 := by
  refine ⟨hmade, h.made bolt11 hmade, ?_⟩
  have hopen : ¬ (entry.relay.attached || entry.relay.closed) = true := by
    simp [h.detached, h.unclosed]
  show entry.relay.attach.attached = true
  unfold EventRelay.attach
  rw [if_neg hopen]

variable {f : Prepared S G → Prepared S G}

theorem answered_modify {entries : List (Prepared S G)}
    (hcore : ∀ entry, (f entry).core = entry.core) {i id : ℕ} {reply : Option (Option String)}
    (h : ∃ entry, entries[id]? = some entry ∧ entry.fits input = true ∧ entry.Answered reply)
    (hf : i = id → ∀ entry, entries[id]? = some entry → entry.Answered reply →
      (f entry).Answered reply) :
    ∃ entry, (entries.modify i f)[id]? = some entry ∧ entry.fits input = true ∧
      entry.Answered reply := by
  obtain ⟨entry, hentry, hfits, hanswered⟩ := h
  refine ⟨_, get_modify hentry, ?_⟩
  split_ifs with hi
  · exact ⟨by rw [fits_of_core (hcore entry), hfits], hf hi entry hentry hanswered⟩
  · exact ⟨hfits, hanswered⟩

theorem core_giveUp (entry : Prepared S G) : entry.giveUp.core = entry.core := rfl

theorem core_attach (entry : Prepared S G) : entry.attach.core = entry.core := rfl

theorem mem_takenIds {k : ℕ} {adoption : Adoption} (h : s.adoptions[k]? = some adoption) :
    adoption.entry ∈ s.takenIds := List.mem_map_of_mem (List.mem_of_getElem? h)

theorem sound_drop (h : Sound s) {id : ℕ} (hcurrent : s.current = some id) :
    Sound (s.drop id) := by
  refine ⟨nofun, nofun, ?_, h.once, ?_⟩
  · intro k adoption hadoption
    refine answered_modify core_giveUp (h.taken k adoption hadoption) fun heq => ?_
    exact absurd (heq ▸ mem_takenIds hadoption) (h.apart id hcurrent)
  · intro id' entry' hentry' _ htaken
    obtain ⟨entry, hentry, rfl⟩ := of_get_modify hentry'
    split_ifs with hid
    · obtain ⟨entry₀, hentry₀, hquiet⟩ := h.held id hcurrent
      rw [← hid, hentry₀] at hentry
      obtain rfl := Option.some.inj hentry
      exact hquiet.giveUp
    · refine h.dropped id' entry hentry ?_ htaken
      rw [hcurrent]
      exact fun heq => hid (Option.some.inj heq)

/-- A new entry is quiet. -/
theorem sound_install (h : Sound s) (hnone : s.current = none) (input : PrepareInput) :
    Sound (s.install input) := by
  have hlast : ∀ id, id ∈ s.takenIds → id < s.entries.length := by
    intro id hid
    obtain ⟨adoption, hadoption, rfl⟩ := List.mem_map.mp hid
    obtain ⟨k, hk⟩ := List.getElem?_of_mem hadoption
    obtain ⟨entry, hentry, -⟩ := h.taken k adoption hk
    exact (List.getElem?_eq_some_iff.mp hentry).1
  refine ⟨?_, ?_, ?_, h.once, ?_⟩
  · intro id hid
    obtain rfl := Option.some.inj hid
    refine ⟨_, List.getElem?_concat_length, ?_⟩
    exact ⟨List.not_mem_nil, fun _ => rfl, nofun, rfl, rfl, rfl⟩
  · intro id hid hmem
    obtain rfl := Option.some.inj hid
    exact absurd (hlast _ hmem) (lt_irrefl _)
  · intro k adoption hadoption
    obtain ⟨entry, hentry, hrest⟩ := h.taken k adoption hadoption
    have hlt : adoption.entry < s.entries.length := hlast _ (mem_takenIds hadoption)
    exact ⟨entry, (List.getElem?_append_left hlt).trans hentry, hrest⟩
  · intro id entry hentry hid htaken
    have hlt : id < s.entries.length := by
      have hlength : id < (s.install input).entries.length :=
        (List.getElem?_eq_some_iff.mp hentry).1
      have hsucc : (s.install input).entries.length = s.entries.length + 1 := List.length_append
      have hne : s.entries.length ≠ id := fun heq => hid (congrArg some heq)
      omega
    refine h.dropped id entry ((List.getElem?_append_left hlt).symm.trans hentry) ?_ htaken
    rw [hnone]
    intro hcurrent
    cases hcurrent

theorem takenIds_take (s : PreparedInvoices S G) (id : ℕ) (input : AdoptInput) :
    (s.take id input).takenIds = s.takenIds ++ [id] := List.map_append

theorem sound_take (h : Sound s) {id : ℕ}
    (hcurrent : s.current = some id) (hentry : s.entries[id]? = some entry)
    (hfits : entry.fits input = true) : Sound (s.take id input) := by
  refine ⟨nofun, nofun, ?_, ?_, ?_⟩
  · intro k adoption hadoption
    by_cases hk : k < s.adoptions.length
    · exact h.taken k adoption ((List.getElem?_append_left hk).symm.trans hadoption)
    · have hnew : adoption = { entry := id, input } := by
        have hlast := (List.getElem?_append_right (not_lt.mp hk)).symm.trans hadoption
        exact List.mem_singleton.mp (List.mem_of_getElem? hlast)
      obtain ⟨entry₀, hentry₀, hquiet⟩ := h.held id hcurrent
      rw [hentry] at hentry₀
      obtain rfl := Option.some.inj hentry₀
      rw [hnew]
      exact ⟨entry, hentry, hfits, hquiet⟩
  · rw [takenIds_take, ← List.concat_eq_append]
    exact h.once.concat (h.apart id hcurrent)
  · intro id' entry' hentry' _ htaken
    rw [takenIds_take, List.mem_append, List.mem_singleton, not_or] at htaken
    refine h.dropped id' entry' hentry' ?_ htaken.1
    rw [hcurrent]
    exact fun heq => htaken.2 (Option.some.inj heq).symm

theorem sound_edit (h : Sound s) (id : ℕ) (hf : Edits f) : Sound (s.edit id f) := by
  refine ⟨?_, h.apart, ?_, h.once, ?_⟩
  · intro id' hid'
    obtain ⟨entry, hentry, hquiet⟩ := h.held id' hid'
    refine ⟨_, get_modify hentry, ?_⟩
    split_ifs
    · exact hf.quiet entry hquiet
    · exact hquiet
  · intro k adoption hadoption
    refine answered_modify hf.core (h.taken k adoption hadoption) fun _ entry _ hanswered => ?_
    match hreply : adoption.answer with
    | none =>
      rw [hreply] at hanswered
      exact hf.quiet entry hanswered
    | some (some bolt11) =>
      rw [hreply] at hanswered
      exact hf.adopted entry bolt11 hanswered
    | some none =>
      rw [hreply] at hanswered
      exact hf.dropped entry hanswered
  · intro id' entry' hentry' hcurrent htaken
    obtain ⟨entry, hentry, rfl⟩ := of_get_modify hentry'
    have hdropped := h.dropped id' entry hentry hcurrent htaken
    split_ifs
    · exact hf.dropped entry hdropped
    · exact hdropped

theorem takenIds_answer (s : PreparedInvoices S G) (k id : ℕ) (f : Prepared S G → Prepared S G)
    (reply : Option String) : (s.answer k id f reply).takenIds = s.takenIds := by
  apply List.ext_getElem?
  intro i
  show ((s.adoptions.modify k _).map Adoption.entry)[i]? = (s.adoptions.map Adoption.entry)[i]?
  rw [List.getElem?_map, List.getElem?_map, List.getElem?_modify]
  cases s.adoptions[i]? with
  | none => rfl
  | some adoption =>
    show some (Adoption.entry (if k = i then _ else _)) = some adoption.entry
    split_ifs <;> rfl

theorem sound_answer (h : Sound s) {k id : ℕ}
    (hwaits : s.adoptions[k]? = some { entry := id, input })
    (hentry : s.entries[id]? = some entry) (hcore : ∀ entry, (f entry).core = entry.core)
    (hf : entry.Quiet → (f entry).Answered (some reply)) : Sound (s.answer k id f reply) := by
  have hid : id ∈ s.takenIds := mem_takenIds hwaits
  refine ⟨?_, ?_, ?_, ?_, ?_⟩
  · intro id' hid'
    obtain ⟨entry', hentry', hquiet⟩ := h.held id' hid'
    have hne : id ≠ id' := fun heq => h.apart id' hid' (heq ▸ hid)
    exact ⟨entry', by rw [← hentry']; exact List.getElem?_modify_ne f _ hne, hquiet⟩
  · rw [takenIds_answer]
    exact h.apart
  · intro j adoption' hadoption'
    obtain ⟨adoption, hadoption, rfl⟩ := of_get_modify hadoption'
    by_cases hj : k = j
    · rw [if_pos hj]
      rw [← hj, hwaits] at hadoption
      obtain rfl := Option.some.inj hadoption
      obtain ⟨entry₀, hentry₀, hfits, hquiet⟩ := h.taken k _ hwaits
      rw [hentry] at hentry₀
      obtain rfl := Option.some.inj hentry₀
      refine ⟨f entry, ?_, by rw [fits_of_core (hcore entry), hfits], hf hquiet⟩
      show (s.entries.modify id f)[id]? = some (f entry)
      rw [get_modify hentry, if_pos rfl]
    · rw [if_neg hj]
      refine answered_modify hcore (h.taken j adoption hadoption) fun heq => ?_
      -- Two adoptions of one entry are the same adoption.
      have hsame : s.takenIds[k]? = s.takenIds[j]? := by
        show (s.adoptions.map Adoption.entry)[k]? = (s.adoptions.map Adoption.entry)[j]?
        rw [List.getElem?_map, List.getElem?_map, hwaits, hadoption, Option.map_some,
          Option.map_some, ← heq]
      have hk : k < s.takenIds.length := by
        rw [takenIds, List.length_map]
        exact (List.getElem?_eq_some_iff.mp hwaits).1
      exact absurd ((List.getElem?_inj hk h.once).mp hsame) hj
  · rw [takenIds_answer]
    exact h.once
  · intro id' entry' hentry' hcurrent htaken
    rw [takenIds_answer] at htaken
    obtain ⟨entry₀, hentry₀, rfl⟩ := of_get_modify hentry'
    have hne : id ≠ id' := fun heq => htaken (heq ▸ hid)
    rw [if_neg hne]
    exact h.dropped id' entry₀ hentry₀ hcurrent htaken

theorem sound_effect (heffect : Effect now s s') (h : Sound s) : Sound s' := by
  cases heffect with
  | bump | expire | free => exact ⟨h.held, h.apart, h.taken, h.once, h.dropped⟩
  | drop id hcurrent => exact sound_drop h hcurrent
  | install input _ hnone => exact sound_install h hnone input
  | take id entry input hcurrent hentry hfits => exact sound_take h hcurrent hentry hfits
  | edit id f hf => exact sound_edit h id hf
  | handOver k id input entry bolt11 hwaits hentry hmade =>
    exact sound_answer h hwaits hentry core_attach fun hquiet => hquiet.attach hmade
  | letGo k id input entry hwaits hentry =>
    exact sound_answer h hwaits hentry core_giveUp fun hquiet => hquiet.giveUp

theorem step_preserves {P : PreparedInvoices S G → Prop} {now : ℤ}
    (hP : ∀ {s s'}, Effect now s s' → P s → P s') (callback : Callback S G)
    (hnow : ∀ input, callback = .prepare input → input.now = now) (h : P s) :
    P (step s callback) := by
  have heffects := step_effects now s callback hnow
  generalize step s callback = s' at heffects
  induction heffects with
  | refl => exact h
  | tail _ heffect ih => exact hP heffect ih

def Callback.reading : Callback S G → ℤ
  | .prepare input => input.now
  | _ => 0

theorem reading_prepare {callback : Callback S G} (input : PrepareInput)
    (h : callback = .prepare input) : input.now = callback.reading := by
  rw [h]
  rfl

theorem sound_step (h : Sound s) (callback : Callback S G) : Sound (step s callback) :=
  step_preserves (fun heffect h => sound_effect heffect h) callback reading_prepare h

theorem sound_runs (callbacks : List (Callback S G)) : Sound (runs callbacks) := by
  induction callbacks using List.reverseRecOn with
  | nil =>
    refine ⟨nofun, nofun, ?_, List.nodup_nil, ?_⟩
    · intro k adoption hadoption
      cases hadoption
    · intro id entry hentry
      cases hentry
  | append_singleton callbacks callback ih =>
    unfold runs
    rw [List.foldl_append]
    exact sound_step ih callback

end Sound

/-! ### What is done is not undone -/

section Advance

variable {S G : Type} {s s' s'' : PreparedInvoices S G} {now : ℤ}

open PreparedInvoices Relation

/-- A later state: tickets only go up, promises stay settled and adoptions answered, and an entry
that is not the current one is not made current or taken again. -/
structure Advance (s s' : PreparedInvoices S G) : Prop where
  generation : s.generation ≤ s'.generation
  entries : ∀ (id : ℕ) entry, s.entries[id]? = some entry →
    ∃ entry', s'.entries[id]? = some entry' ∧ entry'.core = entry.core ∧
      (entry.invoice ≠ .pending → entry'.invoice = entry.invoice)
  adoptions : ∀ (k : ℕ) adoption, s.adoptions[k]? = some adoption →
    ∃ adoption', s'.adoptions[k]? = some adoption' ∧ adoption'.entry = adoption.entry ∧
      (adoption.answer ≠ none → adoption' = adoption)
  current : ∀ id < s.entries.length, s.current ≠ some id → s'.current ≠ some id
  taken : ∀ id < s.entries.length, s.current ≠ some id → id ∈ s'.takenIds → id ∈ s.takenIds

theorem Advance.refl (s : PreparedInvoices S G) : Advance s s where
  generation := le_rfl
  entries := fun _ entry hentry => ⟨entry, hentry, rfl, fun _ => rfl⟩
  adoptions := fun _ adoption hadoption => ⟨adoption, hadoption, rfl, fun _ => rfl⟩
  current := fun _ _ hcurrent => hcurrent
  taken := fun _ _ _ htaken => htaken

theorem Advance.length_le (h : Advance s s') : s.entries.length ≤ s'.entries.length := by
  by_contra hlt
  obtain ⟨entry', hentry', -⟩ := h.entries s'.entries.length _
    (List.getElem?_eq_getElem (not_le.mp hlt))
  exact lt_irrefl _ (List.getElem?_eq_some_iff.mp hentry').1

theorem Advance.trans (h : Advance s s') (h' : Advance s' s'') : Advance s s'' where
  generation := h.generation.trans h'.generation
  entries := by
    intro id entry hentry
    obtain ⟨entry', hentry', hcore', hsettled'⟩ := h.entries id entry hentry
    obtain ⟨entry'', hentry'', hcore'', hsettled''⟩ := h'.entries id entry' hentry'
    refine ⟨entry'', hentry'', hcore''.trans hcore', fun hpending => ?_⟩
    have hinvoice : entry'.invoice = entry.invoice := hsettled' hpending
    rw [hsettled'' (hinvoice ▸ hpending), hinvoice]
  adoptions := by
    intro k adoption hadoption
    obtain ⟨adoption', hadoption', hentry', hanswered'⟩ := h.adoptions k adoption hadoption
    obtain ⟨adoption'', hadoption'', hentry'', hanswered''⟩ :=
      h'.adoptions k adoption' hadoption'
    refine ⟨adoption'', hadoption'', hentry''.trans hentry', fun hnone => ?_⟩
    have hsame : adoption' = adoption := hanswered' hnone
    rw [hanswered'' (hsame ▸ hnone), hsame]
  current := fun id hid hcurrent =>
    h'.current id (hid.trans_le h.length_le) (h.current id hid hcurrent)
  taken := fun id hid hcurrent htaken => h.taken id hid hcurrent
    (h'.taken id (hid.trans_le h.length_le) (h.current id hid hcurrent) htaken)

theorem advance_modify {f : Prepared S G → Prepared S G}
    (hcore : ∀ entry, (f entry).core = entry.core)
    (hsettled : ∀ entry, entry.invoice ≠ .pending → (f entry).invoice = entry.invoice) (id : ℕ) :
    Advance s (s.edit id f) where
  generation := le_rfl
  entries := by
    intro id' entry hentry
    refine ⟨_, get_modify hentry, ?_⟩
    split_ifs
    · exact ⟨hcore entry, hsettled entry⟩
    · exact ⟨rfl, fun _ => rfl⟩
  adoptions := fun _ adoption hadoption => ⟨adoption, hadoption, rfl, fun _ => rfl⟩
  current := fun _ _ hcurrent => hcurrent
  taken := fun _ _ _ htaken => htaken

theorem advance_answer {k id : ℕ} {f : Prepared S G → Prepared S G}
    (hwaits : s.adoptions[k]? = some { entry := id, input })
    (hcore : ∀ entry, (f entry).core = entry.core)
    (hsettled : ∀ entry, entry.invoice ≠ .pending → (f entry).invoice = entry.invoice) :
    Advance s (s.answer k id f reply) where
  generation := le_rfl
  entries := (advance_modify hcore hsettled id).entries
  adoptions := by
    intro j adoption hadoption
    refine ⟨_, get_modify hadoption, ?_⟩
    split_ifs with hj
    · -- The adoption that waits has no answer yet.
      refine ⟨rfl, fun hanswered => absurd ?_ hanswered⟩
      rw [← hj, hwaits] at hadoption
      rw [← Option.some.inj hadoption]
    · exact ⟨rfl, fun _ => rfl⟩
  current := fun _ _ hcurrent => hcurrent
  taken := by
    intro id' _ _ htaken
    rw [takenIds_answer] at htaken
    exact htaken

theorem advance_install (s : PreparedInvoices S G) (input : PrepareInput) :
    Advance s (s.install input) where
  generation := le_rfl
  entries := by
    intro id entry hentry
    have hlt : id < s.entries.length := (List.getElem?_eq_some_iff.mp hentry).1
    exact ⟨entry, (List.getElem?_append_left hlt).trans hentry, rfl, fun _ => rfl⟩
  adoptions := fun _ adoption hadoption => ⟨adoption, hadoption, rfl, fun _ => rfl⟩
  current := fun _ hid _ heq => hid.ne' (Option.some.inj heq)
  taken := fun _ _ _ htaken => htaken

theorem advance_take {id : ℕ} (hcurrent : s.current = some id) (input : AdoptInput) :
    Advance s (s.take id input) where
  generation := le_rfl
  entries := fun _ entry hentry => ⟨entry, hentry, rfl, fun _ => rfl⟩
  adoptions := by
    intro k adoption hadoption
    have hlt : k < s.adoptions.length := (List.getElem?_eq_some_iff.mp hadoption).1
    exact ⟨adoption, (List.getElem?_append_left hlt).trans hadoption, rfl, fun _ => rfl⟩
  current := nofun
  taken := by
    intro id' _ hother htaken
    rw [takenIds_take, List.mem_append, List.mem_singleton] at htaken
    rcases htaken with htaken | rfl
    · exact htaken
    · exact absurd hcurrent hother

theorem advance_effect (heffect : Effect now s s') : Advance s s' := by
  have hsame := Advance.refl s
  cases heffect with
  | bump => exact { hsame with generation := Nat.le_succ _ }
  | expire | free => exact { hsame with }
  | drop id => exact
      { advance_modify core_giveUp (fun _ _ => rfl) id with
        current := nofun }
  | install input => exact advance_install s input
  | take id entry input hcurrent => exact advance_take hcurrent input
  | edit id f hf => exact advance_modify hf.core hf.settled id
  | handOver k id input entry bolt11 hwaits =>
    exact advance_answer hwaits core_attach fun _ _ => rfl
  | letGo k id input entry hwaits => exact advance_answer hwaits core_giveUp fun _ _ => rfl

theorem advance_step (s : PreparedInvoices S G) (callback : Callback S G) :
    Advance s (step s callback) := by
  have heffects : ∀ {s₁ s₂}, Effect callback.reading s₁ s₂ → Advance s s₁ → Advance s s₂ :=
    fun heffect h => h.trans (advance_effect heffect)
  exact step_preserves heffects callback reading_prepare (Advance.refl s)

theorem advance_foldl (s : PreparedInvoices S G) (callbacks : List (Callback S G)) :
    Advance s (callbacks.foldl step s) := by
  induction callbacks generalizing s with
  | nil => exact Advance.refl s
  | cons callback callbacks ih => exact (advance_step s callback).trans (ih _)

theorem runs_append (callbacks later : List (Callback S G)) :
    runs (callbacks ++ later) = later.foldl step (runs callbacks) := List.foldl_append

theorem generation_lt_abandon (s : PreparedInvoices S G) :
    s.generation < s.abandonPreparedInvoice.generation := by
  rw [abandon_generation]
  exact Nat.lt_succ_self _

theorem generation_lt_adopt (s : PreparedInvoices S G) (input : AdoptInput) :
    s.generation < (s.adoptPreparedInvoice input).generation := by
  have hbump : s.generation < s.bump.generation := Nat.lt_succ_self _
  unfold adoptPreparedInvoice
  split
  · exact hbump
  · split_ifs
    · exact hbump
    · exact hbump.trans (generation_lt_abandon s.bump)

theorem resume_current (s : PreparedInvoices S G) (k : ℕ) :
    (s.resumeAdoption k).current = s.current := by
  unfold resumeAdoption
  split
  · split <;> rfl
  · rfl

theorem generation_lt_of_supersedes {callback : Callback S G} (h : Supersedes s callback) :
    s.generation < (step s callback).generation := by
  rcases h with rfl | rfl | ⟨input, rfl⟩ | hcurrent
  · exact Nat.lt_succ_self _
  · exact generation_lt_abandon s
  · exact generation_lt_adopt s input
  · cases callback with
    | prepare input =>
      change (s.prepareInvoice input).2.current ≠ _ at hcurrent
      show s.generation < (s.prepareInvoice input).2.generation
      unfold prepareInvoice at hcurrent ⊢
      split_ifs at hcurrent ⊢
      · exact absurd rfl hcurrent
      · exact absurd rfl hcurrent
      · dsimp only
        split_ifs <;> exact generation_lt_abandon s
    | release => exact Nat.lt_succ_self _
    | abandon => exact generation_lt_abandon s
    | adopt input => exact generation_lt_adopt s input
    | told | settled => exact absurd rfl hcurrent
    | failed id =>
      change (s.invoiceFailed id).current ≠ _ at hcurrent
      show s.generation < (s.invoiceFailed id).generation
      unfold invoiceFailed at hcurrent ⊢
      cases hentry : s.entries[id]? with
      | none =>
        rw [hentry] at hcurrent
        exact absurd rfl hcurrent
      | some entry =>
        rw [hentry] at hcurrent
        dsimp only at hcurrent ⊢
        split_ifs at hcurrent ⊢
        · exact absurd rfl hcurrent
        · exact generation_lt_abandon (s.freeSlot entry.slot)
        · exact absurd rfl hcurrent
    | agedOut id =>
      change (s.agedOut id).current ≠ _ at hcurrent
      show s.generation < (s.agedOut id).generation
      unfold agedOut at hcurrent ⊢
      split_ifs at hcurrent ⊢
      · exact generation_lt_abandon s
      · exact absurd rfl hcurrent
    | resumed k => exact absurd (resume_current s k) hcurrent

theorem prepare_refused {input : PrepareInput} (h : input.ticket < s.generation) :
    s.prepareInvoice input = (.refused, s) := by
  unfold prepareInvoice
  rw [if_pos h.ne]

end Advance

end ChamaEscrow.PreparedInvoice
