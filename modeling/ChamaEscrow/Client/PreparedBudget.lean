import ChamaEscrow.Client.PreparedFates
import Mathlib.Data.List.Perm.Subperm
import Mathlib.Data.List.Range

/-!
# The budget of prepared invoices

An invoice that nobody sees keeps a watch open in the wallet, so only two that were not adopted may
be asked for within one watch window.  A slot is given up for an invoice that fails or is adopted,
and runs out with its watch (`Budget`).  With what becomes of an entry this makes the properties of
the machine (`prepared_invoice_machine`).
-/

namespace ChamaEscrow.PreparedInvoice

/-! ### The budget -/

section Budget

variable {S G : Type} {s s' : PreparedInvoices S G} {now now' : ℤ}

open PreparedInvoices

/-- At a reading of the clock that no preparation has passed yet, an entry that counts has its slot
unless its watch window is over, and no window has too many entries that count. -/
structure Budget (s : PreparedInvoices S G) (now : ℤ) : Prop where
  slot : ∀ (id : ℕ) entry, s.entries[id]? = some entry →
    entry.slot = { id, heldAt := entry.startedAt }
  past : ∀ (id : ℕ) entry, s.entries[id]? = some entry → entry.startedAt ≤ now
  counted : ∀ (id : ℕ) entry, s.entries[id]? = some entry → entry.invoice ≠ .failed →
    id ∉ s.takenIds → entry.slot ∈ s.slots ∨ preparedWatchWindowMs ≤ now - entry.startedAt
  window : ∀ opens, (s.unadoptedWithin opens).length ≤ maxUnadoptedPrepared

theorem mem_unadoptedWithin {opens : ℤ} {id : ℕ} :
    id ∈ s.unadoptedWithin opens ↔ ∃ entry, s.entries[id]? = some entry ∧
      entry.invoice ≠ .failed ∧ id ∉ s.takenIds ∧ opens ≤ entry.startedAt ∧
      entry.startedAt < opens + preparedWatchWindowMs := by
  unfold unadoptedWithin takenIds
  rw [List.mem_filter, List.mem_range]
  have hcounts : ∀ entry : Prepared S G,
      (decide (entry.invoice ≠ .failed) && s.adoptions.all (fun adoption => adoption.entry ≠ id)
        && decide (opens ≤ entry.startedAt)
        && decide (entry.startedAt < opens + preparedWatchWindowMs)) = true ↔
      entry.invoice ≠ .failed ∧ id ∉ s.adoptions.map Adoption.entry ∧ opens ≤ entry.startedAt ∧
        entry.startedAt < opens + preparedWatchWindowMs := by
    intro entry
    simp [and_assoc]
  constructor
  · rintro ⟨-, hany⟩
    obtain ⟨entry, hentry, hentryCounts⟩ := (Option.any_eq_true _ _).mp hany
    exact ⟨entry, hentry, (hcounts entry).mp hentryCounts⟩
  · rintro ⟨entry, hentry, hentryCounts⟩
    refine ⟨(List.getElem?_eq_some_iff.mp hentry).1, ?_⟩
    exact (Option.any_eq_true _ _).mpr ⟨entry, hentry, (hcounts entry).mpr hentryCounts⟩

theorem nodup_unadoptedWithin (opens : ℤ) : (s.unadoptedWithin opens).Nodup :=
  List.nodup_range.filter _

theorem Budget.later (h : Budget s now) (hle : now ≤ now') : Budget s now' where
  slot := h.slot
  past := fun id entry hentry => Int.le_trans (h.past id entry hentry) hle
  counted := by
    intro id entry hentry hfailed htaken
    refine (h.counted id entry hentry hfailed htaken).imp_right fun hover => ?_
    omega
  window := h.window

theorem budget_of_advance (h : Budget s now) (hadvance : Advance s s')
    (hlength : s'.entries.length = s.entries.length)
    (hslots : ∀ (id : ℕ) entry, s'.entries[id]? = some entry → entry.invoice ≠ .failed →
      id ∉ s'.takenIds → entry.slot ∈ s.slots →
      entry.slot ∈ s'.slots ∨ preparedWatchWindowMs ≤ now - entry.startedAt) :
    Budget s' now := by
  have hback : ∀ (id : ℕ) entry', s'.entries[id]? = some entry' → ∃ entry,
      s.entries[id]? = some entry ∧ entry'.slot = entry.slot ∧
      entry'.startedAt = entry.startedAt ∧
      (entry'.invoice ≠ .failed → entry.invoice ≠ .failed) := by
    intro id entry' hentry'
    have hlt : id < s.entries.length := hlength ▸ (List.getElem?_eq_some_iff.mp hentry').1
    have hentry := List.getElem?_eq_getElem hlt
    obtain ⟨entry'', hentry'', hcore, hsettled⟩ := hadvance.entries id _ hentry
    rw [hentry'] at hentry''
    obtain rfl := Option.some.inj hentry''
    simp only [Prepared.core, Prod.mk.injEq] at hcore
    refine ⟨_, hentry, hcore.2.2.2, hcore.2.1, fun hnot hfailed => hnot ?_⟩
    rw [hsettled (by simp [hfailed]), hfailed]
  have htakenIds : ∀ id, id ∉ s'.takenIds → id ∉ s.takenIds := by
    intro id hnot hid
    obtain ⟨adoption, hadoption, rfl⟩ := List.mem_map.mp hid
    obtain ⟨k, hk⟩ := List.getElem?_of_mem hadoption
    obtain ⟨adoption', hadoption', hentry', -⟩ := hadvance.adoptions k adoption hk
    exact hnot (hentry' ▸ mem_takenIds hadoption')
  refine ⟨?_, ?_, ?_, ?_⟩
  · intro id entry' hentry'
    obtain ⟨entry, hentry, hslot, hstarted, -⟩ := hback id entry' hentry'
    rw [hslot, hstarted]
    exact h.slot id entry hentry
  · intro id entry' hentry'
    obtain ⟨entry, hentry, -, hstarted, -⟩ := hback id entry' hentry'
    rw [hstarted]
    exact h.past id entry hentry
  · intro id entry' hentry' hfailed htaken
    obtain ⟨entry, hentry, hslot, hstarted, hback'⟩ := hback id entry' hentry'
    rcases h.counted id entry hentry (hback' hfailed) (htakenIds id htaken) with hmem | hover
    · exact hslots id entry' hentry' hfailed htaken (hslot ▸ hmem)
    · rw [hstarted]
      exact Or.inr hover
  · intro opens
    refine (List.subperm_of_subset (nodup_unadoptedWithin opens) ?_).length_le.trans
      (h.window opens)
    intro id hid
    obtain ⟨entry', hentry', hfailed, htaken, hopens, hcloses⟩ := mem_unadoptedWithin.mp hid
    obtain ⟨entry, hentry, -, hstarted, hback'⟩ := hback id entry' hentry'
    exact mem_unadoptedWithin.mpr ⟨entry, hentry, hback' hfailed, htakenIds id htaken,
      hstarted ▸ hopens, hstarted ▸ hcloses⟩

/-- There is room for a new entry: of those that count, one at most was asked for within a watch
window of now. -/
theorem budget_install (h : Budget s now) {input : PrepareInput} (hnow : input.now = now)
    (hroom : s.slots.length < maxUnadoptedPrepared) : Budget (s.install input) now := by
  have hcases : ∀ (id : ℕ) entry, (s.install input).entries[id]? = some entry →
      s.entries[id]? = some entry ∨ id = s.entries.length ∧ entry.startedAt = now ∧
        entry.slot = { id, heldAt := now } := by
    intro id entry hentry
    by_cases hlt : id < s.entries.length
    · exact Or.inl ((List.getElem?_append_left hlt).symm.trans hentry)
    · right
      have hlast := (List.getElem?_append_right (not_lt.mp hlt)).symm.trans hentry
      have hzero : id - s.entries.length = 0 := by
        have hbound := (List.getElem?_eq_some_iff.mp hlast).1
        exact Nat.lt_one_iff.mp hbound
      have hid : id = s.entries.length := by omega
      rw [hzero] at hlast
      obtain rfl := Option.some.inj hlast
      exact ⟨hid, hnow, by rw [hid, ← hnow]⟩
  refine ⟨?_, ?_, ?_, ?_⟩
  · intro id entry hentry
    rcases hcases id entry hentry with hold | ⟨-, hstarted, hslot⟩
    · exact h.slot id entry hold
    · rw [hslot, hstarted]
  · intro id entry hentry
    rcases hcases id entry hentry with hold | ⟨-, hstarted, -⟩
    · exact h.past id entry hold
    · exact Int.le_of_eq hstarted
  · intro id entry hentry hfailed htaken
    rcases hcases id entry hentry with hold | ⟨hid, -, hslot⟩
    · exact (h.counted id entry hold hfailed htaken).imp_left fun hmem =>
        List.mem_append_left _ hmem
    · left
      rw [hslot, hid, ← hnow]
      exact List.mem_append_right _ List.mem_cons_self
  · intro opens
    by_cases hin : opens ≤ now ∧ now < opens + preparedWatchWindowMs
    · -- The window reaches now, so what counts in it still has its slot.
      have hslots : s.unadoptedWithin opens ⊆ s.slots.map Slot.id := by
        intro id hid
        obtain ⟨entry, hentry, hfailed, htaken, hopens, -⟩ := mem_unadoptedWithin.mp hid
        rcases h.counted id entry hentry hfailed htaken with hmem | hover
        · rw [h.slot id entry hentry] at hmem
          exact List.mem_map_of_mem hmem
        · omega
      have hold : (s.unadoptedWithin opens).length ≤ s.slots.length := by
        have hle := (List.subperm_of_subset (nodup_unadoptedWithin opens) hslots).length_le
        rw [List.length_map] at hle
        exact hle
      have hnew : (s.install input).unadoptedWithin opens
          ⊆ s.entries.length :: s.unadoptedWithin opens := by
        intro id hid
        obtain ⟨entry, hentry, hcounts⟩ := mem_unadoptedWithin.mp hid
        rcases hcases id entry hentry with hold | ⟨rfl, -⟩
        · exact List.mem_cons_of_mem _ (mem_unadoptedWithin.mpr ⟨entry, hold, hcounts⟩)
        · exact List.mem_cons_self
      have hle := (List.subperm_of_subset (nodup_unadoptedWithin opens) hnew).length_le
      rw [List.length_cons] at hle
      omega
    · have hnew : (s.install input).unadoptedWithin opens ⊆ s.unadoptedWithin opens := by
        intro id hid
        obtain ⟨entry, hentry, hcounts⟩ := mem_unadoptedWithin.mp hid
        rcases hcases id entry hentry with hold | ⟨-, hstarted, -⟩
        · exact mem_unadoptedWithin.mpr ⟨entry, hold, hcounts⟩
        · rw [hstarted] at hcounts
          exact absurd hcounts.2.2 hin
      exact (List.subperm_of_subset (nodup_unadoptedWithin opens) hnew).length_le.trans
        (h.window opens)

theorem budget_effect (heffect : Effect now s s') (h : Budget s now) : Budget s' now := by
  have hadvance := advance_effect heffect
  cases heffect with
  | bump => exact budget_of_advance h hadvance rfl fun _ _ _ _ _ hmem => Or.inl hmem
  | expire =>
    refine budget_of_advance h hadvance rfl fun id entry hentry _ _ hmem => ?_
    by_cases hover : preparedWatchWindowMs ≤ now - entry.startedAt
    · exact Or.inr hover
    · refine Or.inl (List.mem_filter.mpr ⟨hmem, ?_⟩)
      rw [h.slot id entry hentry]
      exact decide_eq_true (Int.not_le.mp hover)
  | free id entry hentry hdone =>
    refine budget_of_advance h hadvance rfl fun id' entry' hentry' hfailed htaken hmem => ?_
    refine Or.inl (List.mem_filter.mpr ⟨hmem, decide_eq_true fun hslot => ?_⟩)
    rw [h.slot id entry hentry, h.slot id' entry' hentry'] at hslot
    -- The slot tells which entry it is of, and that one no longer counts.
    have hid : id' = id := congrArg Slot.id hslot
    subst hid
    obtain rfl := Option.some.inj (hentry.symm.trans hentry')
    rcases hdone with hdone | hdone
    · exact hfailed hdone
    · exact htaken hdone
  | drop id =>
    exact budget_of_advance h hadvance (List.length_modify _ _ id) fun _ _ _ _ _ hmem =>
      Or.inl hmem
  | install input hnow _ hroom => exact budget_install h hnow hroom
  | take => exact budget_of_advance h hadvance rfl fun _ _ _ _ _ hmem => Or.inl hmem
  | edit id =>
    exact budget_of_advance h hadvance (List.length_modify _ _ id) fun _ _ _ _ _ hmem =>
      Or.inl hmem
  | handOver k id | letGo k id =>
    exact budget_of_advance h hadvance (List.length_modify _ _ id) fun _ _ _ _ _ hmem =>
      Or.inl hmem

theorem preparedAt_concat (callbacks : List (Callback S G)) (callback : Callback S G) :
    preparedAt (callbacks ++ [callback]) = preparedAt callbacks ++ preparedAt [callback] :=
  List.filterMap_append

theorem budget_initial (now : ℤ) : Budget ({} : PreparedInvoices S G) now := by
  refine ⟨?_, ?_, ?_, fun opens => Nat.zero_le _⟩
  · intro id entry hentry
    cases hentry
  · intro id entry hentry
    cases hentry
  · intro id entry hentry
    cases hentry

theorem budget_runs (callbacks : List (Callback S G))
    (hsorted : (preparedAt callbacks).Pairwise (· ≤ ·)) {now : ℤ}
    (hnow : ∀ reading ∈ preparedAt callbacks, reading ≤ now) : Budget (runs callbacks) now := by
  induction callbacks using List.reverseRecOn generalizing now with
  | nil => exact budget_initial now
  | append_singleton callbacks callback ih =>
    rw [preparedAt_concat] at hsorted hnow
    obtain ⟨hbefore, -, hlast⟩ := List.pairwise_append.mp hsorted
    rw [runs_append]
    show Budget (step (runs callbacks) callback) now
    have hstep : ∀ {reading : ℤ}, (∀ input, callback = .prepare input → input.now = reading) →
        Budget (runs callbacks) reading → Budget (step (runs callbacks) callback) reading :=
      fun hreading => step_preserves (fun heffect h => budget_effect heffect h) callback hreading
    cases callback with
    | prepare input =>
      -- A preparation is judged at its own reading, the latest there is.
      have hinput : ∀ reading ∈ preparedAt callbacks, reading ≤ input.now :=
        fun reading hmem => hlast reading hmem input.now List.mem_cons_self
      refine (hstep ?_ (ih hbefore hinput)).later
        (hnow input.now (List.mem_append_right _ List.mem_cons_self))
      rintro input' heq
      cases heq
      rfl
    | _ =>
      refine hstep (fun _ heq => by cases heq) (ih hbefore fun reading hmem => ?_)
      exact hnow reading (List.mem_append_left _ hmem)

theorem exists_ge (readings : List ℤ) : ∃ now, ∀ reading ∈ readings, reading ≤ now := by
  induction readings with
  | nil => exact ⟨0, List.forall_mem_nil _⟩
  | cons reading readings ih =>
    obtain ⟨now, hnow⟩ := ih
    refine ⟨max reading now, List.forall_mem_cons.mpr ⟨by omega, fun other hmem => ?_⟩⟩
    have hother := hnow other hmem
    omega

end Budget

/-! ### The machine -/

section Machine

variable {S G : Type}

open PreparedInvoices

theorem expiry_of_fits {entry : Prepared S G} {input : AdoptInput}
    (h : entry.fits input = true) :
    entry.terms.filled = input.terms.filled ∧
      input.now - entry.startedAt < preparedInvoiceMaxAgeMs ∧
      entry.expiresAtSec ≤ input.freshExpiresAtSec + 5 ∧
      (input.expirySeconds ≤ entry.life →
        input.freshExpiresAtSec ≤ entry.expiresAtSec + 60) := by
  unfold Prepared.fits at h
  simp only [Bool.and_eq_true, decide_eq_true_eq] at h
  obtain ⟨⟨hterms, hage⟩, hexpires⟩ := h
  refine ⟨sameTerms_iff.mp hterms, hage, hexpires, fun hlife => ?_⟩
  unfold preparedInvoiceMaxAgeMs at hage
  unfold Prepared.life at hlife
  unfold AdoptInput.freshExpiresAtSec
  omega

theorem adopted_forever (callbacks later : List (Callback S G)) {adoption : Adoption}
    (hadoption : adoption ∈ (runs callbacks).adoptions) {bolt11 : String}
    (hanswer : adoption.answer = some (some bolt11)) :
    adoption ∈ (runs (callbacks ++ later)).adoptions ∧
      ∃ entry, (runs (callbacks ++ later)).entries[adoption.entry]? = some entry ∧
        entry.invoice = .made bolt11 ∧ entry.journal = [.record bolt11] := by
  obtain ⟨k, hk⟩ := List.getElem?_of_mem hadoption
  have hadvance : Advance (runs callbacks) (runs (callbacks ++ later)) := by
    rw [runs_append]
    exact advance_foldl _ later
  obtain ⟨adoption', hadoption', -, hsame⟩ := hadvance.adoptions k adoption hk
  obtain rfl : adoption' = adoption := hsame (by rw [hanswer]; nofun)
  obtain ⟨entry, hentry, -, hanswered⟩ :=
    (sound_runs (callbacks ++ later)).taken k adoption' hadoption'
  rw [hanswer] at hanswered
  exact ⟨List.mem_of_getElem? hadoption', entry, hentry, hanswered.made, hanswered.recorded⟩

/-- In every run, whatever the clock reads: no entry is adopted twice, and every one that is was
prepared on the same terms, is under a minute old and expires no later than five seconds after a
fresh invoice; what is adopted stays recorded and is never reported abandoned; an entry that is
superseded is neither made current nor adopted; and a press that is superseded prepares nothing.
While the clock never reads less at a preparation than at an earlier one, no watch window has more
than two entries that have not failed and that no adoption took. -/
theorem prepared_invoice_machine (callbacks later : List (Callback S G)) :
    ((preparedAt callbacks).Pairwise (· ≤ ·) → ∀ opens,
      ((runs callbacks).unadoptedWithin opens).length ≤ maxUnadoptedPrepared) ∧
    ((runs callbacks).adoptions.map Adoption.entry).Nodup ∧
    (∀ adoption ∈ (runs callbacks).adoptions, ∃ entry,
      (runs callbacks).entries[adoption.entry]? = some entry ∧
      entry.terms.filled = adoption.input.terms.filled ∧
      adoption.input.now - entry.startedAt < preparedInvoiceMaxAgeMs ∧
      entry.expiresAtSec ≤ adoption.input.freshExpiresAtSec + 5 ∧
      (adoption.input.expirySeconds ≤ entry.life →
        adoption.input.freshExpiresAtSec ≤ entry.expiresAtSec + 60)) ∧
    (∀ adoption ∈ (runs callbacks).adoptions, ∀ bolt11, adoption.answer = some (some bolt11) →
      adoption ∈ (runs (callbacks ++ later)).adoptions ∧
      ∃ entry, (runs (callbacks ++ later)).entries[adoption.entry]? = some entry ∧
        entry.invoice = .made bolt11 ∧ entry.journal = [.record bolt11]) ∧
    (∀ id < (runs callbacks).entries.length, (runs callbacks).current ≠ some id →
      (runs (callbacks ++ later)).current ≠ some id ∧
      (id ∈ (runs (callbacks ++ later)).adoptions.map Adoption.entry →
        id ∈ (runs callbacks).adoptions.map Adoption.entry)) ∧
    (∀ between callback rest, later = between ++ callback :: rest →
      Supersedes (runs (callbacks ++ between)) callback →
      ∀ input : PrepareInput, input.ticket = (runs callbacks).preparationTicket →
        (runs (callbacks ++ later)).prepareInvoice input
          = (.refused, runs (callbacks ++ later))) := by
  have hsound : Sound (runs callbacks) := sound_runs callbacks
  refine ⟨?_, hsound.once, ?_, ?_, ?_, ?_⟩
  · intro hsorted opens
    obtain ⟨now, hnow⟩ := exists_ge (preparedAt callbacks)
    exact (budget_runs callbacks hsorted hnow).window opens
  · intro adoption hadoption
    obtain ⟨k, hk⟩ := List.getElem?_of_mem hadoption
    obtain ⟨entry, hentry, hfits, -⟩ := hsound.taken k adoption hk
    exact ⟨entry, hentry, expiry_of_fits hfits⟩
  · intro adoption hadoption bolt11 hanswer
    exact adopted_forever callbacks later hadoption hanswer
  · intro id hid hcurrent
    rw [runs_append]
    have hadvance := advance_foldl (runs callbacks) later
    exact ⟨hadvance.current id hid hcurrent, hadvance.taken id hid hcurrent⟩
  · rintro between callback rest rfl hsupersedes input hticket
    apply prepare_refused
    have hbetween : (runs callbacks).generation ≤ (runs (callbacks ++ between)).generation := by
      rw [runs_append]
      exact (advance_foldl _ between).generation
    have hcallback := generation_lt_of_supersedes hsupersedes
    have hrest : (step (runs (callbacks ++ between)) callback).generation
        ≤ (runs (callbacks ++ (between ++ callback :: rest))).generation := by
      rw [← List.append_assoc, runs_append (callbacks ++ between), List.foldl_cons]
      exact (advance_foldl _ rest).generation
    rw [hticket]
    exact (hbetween.trans_lt hcallback).trans_le hrest

def termsOf (escrowId : String) : PreparedInvoiceTerms :=
  { escrowId, federationId := "fed", amountMsats := 25_000, description := "lock", itemsKey := "" }

def adoptedRun : List (Callback String String) :=
  [.prepare { ticket := 0, terms := termsOf "a", expirySeconds := 900, now := 0 },
    .settled 0 (.made "lnbc1" true),
    .adopt { terms := termsOf "a", expirySeconds := 900, now := 1_300 },
    .resumed 0]

theorem prepared_invoice_machine_adopted :
    ∃ entry, (runs (adoptedRun ++ [.abandon, .agedOut 0])).entries[0]? = some entry ∧
      entry.journal = [.record "lnbc1"] := by
  have hadopted : (⟨0, ⟨termsOf "a", 900, 1_300⟩, some (some "lnbc1")⟩ : Adoption)
      ∈ (runs adoptedRun).adoptions := List.mem_cons_self
  obtain ⟨-, -, -, hforever, -⟩ := prepared_invoice_machine adoptedRun [.abandon, .agedOut 0]
  obtain ⟨-, entry, hentry, -, hjournal⟩ := hforever _ hadopted "lnbc1" rfl
  exact ⟨entry, hentry, hjournal⟩

/-- Two invoices are prepared, the clock jumps two hours ahead for a third and back for a fourth. -/
def clockBackRun : List (Callback String String) :=
  [.prepare { ticket := 0, terms := termsOf "a", expirySeconds := 900, now := 0 },
    .settled 0 (.made "lnbc1" true),
    .prepare { ticket := 1, terms := termsOf "b", expirySeconds := 900, now := 0 },
    .settled 1 (.made "lnbc2" true),
    .prepare { ticket := 2, terms := termsOf "a", expirySeconds := 900, now := 7_200_000 },
    .settled 2 (.made "lnbc3" true),
    .prepare { ticket := 3, terms := termsOf "b", expirySeconds := 900, now := 1 },
    .settled 3 (.made "lnbc4" true)]

/-- An invoice that lives for twenty seconds is adopted after thirty, in place of one that would
live for a quarter of an hour. -/
def shortLivedRun : List (Callback String String) :=
  [.prepare { ticket := 0, terms := termsOf "a", expirySeconds := 20, now := 0 },
    .settled 0 (.made "lnbc1" true),
    .adopt { terms := termsOf "a", expirySeconds := 900, now := 30_000 },
    .resumed 0]

/-- A clock that goes back brings a third invoice into a window, and an invoice that has expired is
adopted. -/
theorem prepared_invoice_machine_fails :
    (runs clockBackRun).unadoptedWithin 0 = [0, 1, 3] ∧
    (runs shortLivedRun).adoptions.map (fun adoption => (adoption.entry, adoption.answer))
      = [(0, some (some "lnbc1"))] ∧
    (runs shortLivedRun).entries.map Prepared.expiresAtSec = [20] ∧
    (runs shortLivedRun).adoptions.map (fun adoption => adoption.input.now / 1000) = [30] := by
  decide +kernel

end Machine

end ChamaEscrow.PreparedInvoice
