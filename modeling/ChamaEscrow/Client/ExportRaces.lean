import ChamaEscrow.Client.EcashExports

/-!
# Exports that share a slot

A flow asserts that the slot is writable before it spends, and writes the slot after the spend,
without another look at it; a clearing does not look at what it clears.

* `export_notes_kept`: in every interleaving, notes that were spent are about to be stashed, or can
  be read from the slot, or their import was confirmed, as long as nothing is stashed, probed or
  cleared over notes of another flow, no stashing fails, and no flow is cut off before it.
* `export_notes_lost`: two flows that have both found the slot free stash one note over the other.
-/

namespace ChamaEscrow

open Js Library

variable {w w' : ExportWorld} {c : ExportChoice} {notes : String}

def ExportWorld.Readable (w : ExportWorld) (notes : String) : Prop :=
  ∃ entry, getEcashExport .none w.slot = some entry ∧ entry.notes = notes

def ExportWorld.Safe (w : ExportWorld) (notes : String) : Prop :=
  notes ∈ w.confirmed ∨ w.Readable notes

theorem getEcashExport_eq_some {f : Faults} {s : Stored ExportEntry} {entry : ExportEntry} :
    getEcashExport f s = some entry ↔ f.read = false ∧ s = .value entry := by
  unfold getEcashExport Stored.readItem
  cases hread : f.read with
  | true => simp
  | false => cases s <;> simp

theorem readable_iff : w.Readable notes ↔ ∃ entry, w.slot = .value entry ∧ entry.notes = notes := by
  unfold ExportWorld.Readable
  constructor
  · rintro ⟨entry, hget, hnotes⟩
    exact ⟨entry, (getEcashExport_eq_some.mp hget).2, hnotes⟩
  · rintro ⟨entry, hslot, hnotes⟩
    exact ⟨entry, getEcashExport_eq_some.mpr ⟨rfl, hslot⟩, hnotes⟩

/-! ### What is written -/

theorem assertEcashExportWritable_of_read {f : ExportFaults} {escrowId : Option String}
    {entry : ExportEntry} (hread : f.read = false) :
    (assertEcashExportWritable f escrowId (.value entry)).2 = .value entry := by
  unfold assertEcashExportWritable
  rw [getEcashExport_eq_some.mpr ⟨hread, rfl⟩]
  dsimp only
  split_ifs <;> rfl

theorem stashEcashExport_cases (f : Faults) (now : JsNumber) (input : ExportInput)
    (s : Stored ExportEntry) :
    (∃ entry, (stashEcashExport f now input s).2 = .value entry ∧ entry.notes = input.notes) ∨
      (f.write = some .lost ∧ (stashEcashExport f now input s).2 = s) := by
  unfold stashEcashExport Stored.writeItem
  cases f.write with
  | none => exact Or.inl ⟨_, rfl, rfl⟩
  | some fault =>
    cases fault with
    | lost => exact Or.inr ⟨rfl, rfl⟩
    | kept => exact Or.inl ⟨_, rfl, rfl⟩

theorem markClaimEcashExportPublished_notes (f : Faults) (now : JsNumber) (escrowId : String)
    (entry : ExportEntry) : ∃ marked : ExportEntry, marked.notes = entry.notes ∧
      (markClaimEcashExportPublished f now escrowId (.value entry)).2 = .value marked := by
  unfold markClaimEcashExportPublished
  cases hget : getEcashExport f (.value entry) with
  | none => exact ⟨entry, rfl, rfl⟩
  | some found =>
    obtain ⟨-, hfound⟩ := getEcashExport_eq_some.mp hget
    obtain rfl := Stored.value.inj hfound
    dsimp only
    split_ifs
    · exact ⟨entry, rfl, rfl⟩
    · rcases stashEcashExport_cases f now (publishedExport entry escrowId) (.value entry) with
        ⟨marked, hvalue, hnotes⟩ | ⟨-, hsame⟩
      · exact ⟨marked, hnotes, hvalue⟩
      · exact ⟨entry, rfl, hsame⟩

/-! ### One step -/

/-- Only these notes, or such as are confirmed or from no spend, can be read from the slot. -/
def ExportWorld.Spared (w : ExportWorld) (own : String → Prop) : Prop :=
  ∀ entry, w.slot = .value entry →
    own entry.notes ∨ entry.notes ∉ w.spent ∨ entry.notes ∈ w.confirmed

/-- The choices that count at a call: the slot is probed, stashed over or cleared only where no
notes of another flow stand in it, and a stashing is written. -/
def SparesExport : ExportOp → ExportWorld → ExportChoice → Prop
  | .assertWritable _, w, .storage f _ => f.read = true → w.Spared fun _ => False
  | .stash input, w, .storage f _ =>
    f.write ≠ some .lost ∧ w.Spared fun notes => notes = input.notes
  | .clear, w, .storage _ _ => w.Spared fun _ => False
  | _, _, _ => True

theorem ExportWorld.Spared.safe (h : w.Spared fun _ => False) (hspent : notes ∈ w.spent)
    (hsafe : w.Safe notes) : notes ∈ w.confirmed := by
  rcases hsafe with hconfirmed | hreadable
  · exact hconfirmed
  · obtain ⟨entry, hslot, rfl⟩ := readable_iff.mp hreadable
    rcases h entry hslot with hfalse | hnot | hconfirmed
    · exact hfalse.elim
    · exact absurd hspent hnot
    · exact hconfirmed

theorem readable_of_stash {input : ExportInput} {r : Except StorageError Unit}
    (hcounts : SparesExport (.stash input) w c)
    (h : performExport (.stash input) w c = some (r, w')) : w'.Readable input.notes := by
  cases c with
  | storage f now =>
    obtain ⟨-, rfl⟩ := Prod.mk.inj (Option.some.inj h)
    rcases stashEcashExport_cases f.toFaults now input w.slot with hvalue | ⟨hlost, -⟩
    · exact readable_iff.mpr hvalue
    · exact absurd hlost hcounts.1
  | _ => cases h

variable {op : ExportOp}

variable {r : op.Reply}

theorem ExportWorld.Safe.perform (hsafe : w.Safe notes)
    (hspent : notes ∈ w.spent) (hcounts : SparesExport op w c)
    (h : performExport op w c = some (r, w')) : w'.Safe notes := by
  cases op with
  | assertWritable escrowId =>
    cases c with
    | storage f now =>
      obtain ⟨-, rfl⟩ := Prod.mk.inj (Option.some.inj h)
      cases hread : f.read with
      | true => exact Or.inl ((hcounts hread).safe hspent hsafe)
      | false =>
        refine hsafe.imp_right fun hreadable => ?_
        obtain ⟨entry, hslot, hnotes⟩ := readable_iff.mp hreadable
        refine readable_iff.mpr ⟨entry, ?_, hnotes⟩
        change (assertEcashExportWritable f escrowId w.slot).2 = .value entry
        rw [hslot]
        exact assertEcashExportWritable_of_read hread
    | _ => cases h
  | spendNotes amountMsats =>
    cases c with
    | mints minted =>
      unfold performExport at h
      dsimp only at h
      split_ifs at h
      obtain ⟨-, rfl⟩ := Prod.mk.inj (Option.some.inj h)
      exact hsafe
    | throws =>
      obtain ⟨-, rfl⟩ := Prod.mk.inj (Option.some.inj h)
      exact hsafe
    | _ => cases h
  | stash input =>
    have hstashed := readable_of_stash hcounts h
    cases c with
    | storage f now =>
      obtain ⟨-, rfl⟩ := Prod.mk.inj (Option.some.inj h)
      rcases hsafe with hconfirmed | hreadable
      · exact Or.inl hconfirmed
      · obtain ⟨entry, hslot, rfl⟩ := readable_iff.mp hreadable
        rcases hcounts.2 entry hslot with hown | hnot | hconfirmed
        · rw [← hown] at hstashed
          exact Or.inr hstashed
        · exact absurd hspent hnot
        · exact Or.inl hconfirmed
    | _ => cases h
  | markPublished escrowId =>
    cases c with
    | storage f now =>
      obtain ⟨-, rfl⟩ := Prod.mk.inj (Option.some.inj h)
      refine hsafe.imp_right fun hreadable => ?_
      obtain ⟨entry, hslot, hnotes⟩ := readable_iff.mp hreadable
      obtain ⟨marked, hsame, hmarked⟩ :=
        markClaimEcashExportPublished_notes f.toFaults now escrowId entry
      refine readable_iff.mpr ⟨marked, ?_, hsame.trans hnotes⟩
      change (markClaimEcashExportPublished f.toFaults now escrowId w.slot).2 = .value marked
      rw [hslot]
      exact hmarked
    | _ => cases h
  | confirmImport imported =>
    cases c with
    | returns =>
      obtain ⟨-, rfl⟩ := Prod.mk.inj (Option.some.inj h)
      exact hsafe.imp_left (List.mem_cons_of_mem imported)
    | _ => cases h
  | clear =>
    cases c with
    | storage f now =>
      obtain ⟨-, rfl⟩ := Prod.mk.inj (Option.some.inj h)
      have hspared : w.Spared fun _ => False := hcounts
      exact Or.inl (hspared.safe hspent hsafe)
    | _ => cases h
  | redeem | publishDeliveredClaim | complete =>
    cases c with
    | returns | throws =>
      obtain ⟨-, rfl⟩ := Prod.mk.inj (Option.some.inj h)
      exact hsafe
    | _ => cases h
  | getExport =>
    cases c with
    | storage =>
      obtain ⟨-, rfl⟩ := Prod.mk.inj (Option.some.inj h)
      exact hsafe
    | _ => cases h

theorem spent_perform (h : performExport op w c = some (r, w'))
    (hspent : notes ∈ w'.spent) : notes ∈ w.spent ∨
      ∃ amountMsats, op = .spendNotes amountMsats ∧
        HEq r (Except.ok notes : Except String String) := by
  cases op with
  | spendNotes amountMsats =>
    cases c with
    | mints minted =>
      unfold performExport at h
      dsimp only at h
      split_ifs at h
      obtain ⟨rfl, rfl⟩ := Prod.mk.inj (Option.some.inj h)
      rcases List.mem_cons.mp hspent with rfl | hbefore
      · exact Or.inr ⟨amountMsats, rfl, HEq.rfl⟩
      · exact Or.inl hbefore
    | throws =>
      obtain ⟨-, rfl⟩ := Prod.mk.inj (Option.some.inj h)
      exact Or.inl hspent
    | _ => cases h
  | assertWritable | stash | getExport | markPublished | clear =>
    cases c with
    | storage =>
      obtain ⟨-, rfl⟩ := Prod.mk.inj (Option.some.inj h)
      exact Or.inl hspent
    | _ => cases h
  | confirmImport =>
    cases c with
    | returns =>
      obtain ⟨-, rfl⟩ := Prod.mk.inj (Option.some.inj h)
      exact Or.inl hspent
    | _ => cases h
  | redeem | publishDeliveredClaim | complete =>
    cases c with
    | returns | throws =>
      obtain ⟨-, rfl⟩ := Prod.mk.inj (Option.some.inj h)
      exact Or.inl hspent
    | _ => cases h

/-! ### What a flow does with the notes of a spend -/

def AboutToStash (p : ExportProg Unit) (notes : String) : Prop :=
  ∃ input k, p = .call (.stash input) k ∧ input.notes = notes

/-- What follows the calls of a flow: the notes of a spend are stashed next. -/
def StashesAt : (op : ExportOp) → (op.Reply → ExportProg Unit) → Prop
  | .spendNotes _, k => ∀ notes, AboutToStash (k (.ok notes)) notes
  | _, _ => True

/-- A flow in which this holds of every call. -/
def Stashes (p : ExportProg Unit) : Prop := p.Everywhere StashesAt

theorem stashes_completeAndClear {escrowId : String} : Stashes (completeAndClear escrowId) :=
  ⟨trivial, fun _ => ⟨trivial, fun _ => trivial⟩⟩

theorem stashes_confirmClaimExport {escrowId : String} : Stashes (confirmClaimExport escrowId) := by
  refine ⟨trivial, fun pending => ?_⟩
  simp only [Prog.bind]
  split_ifs
  · refine ⟨trivial, fun published => ?_⟩
    cases published with
    | error => trivial
    | ok =>
      refine ⟨trivial, fun marked => ?_⟩
      cases marked with
      | error => trivial
      | ok => exact stashes_completeAndClear
  · trivial

theorem stashes_confirmExport : Stashes (confirmExport notes) := by
  refine ⟨trivial, fun _ => ⟨trivial, fun pending => ?_⟩⟩
  simp only [Prog.bind]
  split
  · split_ifs
    · exact ⟨trivial, fun _ => trivial⟩
    · exact stashes_confirmClaimExport
  · exact ⟨trivial, fun _ => trivial⟩

theorem stashes_spendAndStash {amountMsats : JsNumber} {inputOf : String → ExportInput}
    (hinput : ∀ notes, (inputOf notes).notes = notes) :
    Stashes (spendAndStash amountMsats inputOf >>= fun r =>
      match r with
      | .ok notes => confirmExport notes
      | .error _ => .ret ()) := by
  refine ⟨fun notes => ⟨inputOf notes, _, rfl, hinput notes⟩, fun spent => ?_⟩
  cases spent with
  | error => trivial
  | ok notes =>
    refine ⟨trivial, fun stashed => ?_⟩
    cases stashed with
    | ok => exact stashes_confirmExport
    | error => exact ⟨trivial, fun _ => trivial⟩

theorem stashes_exportFlow (flow : ExportFlow) : Stashes (exportFlow flow) := by
  cases flow with
  | balance amountMsats federationLabel =>
    refine ⟨trivial, fun writable => ?_⟩
    cases writable with
    | error => trivial
    | ok => exact stashes_spendAndStash fun _ => rfl
  | claim amountMsats escrowId =>
    refine ⟨trivial, fun writable => ?_⟩
    cases writable with
    | error => trivial
    | ok pending =>
      cases pending with
      | some entry => exact stashes_confirmExport
      | none => exact stashes_spendAndStash fun _ => rfl
  | resume =>
    refine ⟨trivial, fun pending => ?_⟩
    cases pending with
    | some entry => exact stashes_confirmExport
    | none => trivial

/-! ### Runs -/

variable {q : Option (ExportProg Unit)}

section Runs

variable {ι : Type} [DecidableEq ι]

/-- The events that count: a step spares the notes of the other flows, and no flow is stopped, or
started anew, when it is about to stash. -/
def ExportsSpared (cfg : Config exportPlatform ι Unit) : Event exportPlatform ι ExportFlow → Prop
  | .step i c => ∀ op k, cfg.slots i = some (.call op k) → SparesExport op cfg.world c
  | .start i _ | .stop i => ∀ p notes, cfg.slots i = some p → ¬ AboutToStash p notes
  | .drift _ => True

/-- Where the notes of a spend are: they are safe, or some flow is about to stash them. -/
def Accounted (cfg : Config exportPlatform ι Unit) (notes : String) : Prop :=
  cfg.world.Safe notes ∨ ∃ i p, cfg.slots i = some p ∧ AboutToStash p notes

variable {cfg : Config exportPlatform ι Unit}

theorem accounted_update {i : ι} {w : ExportWorld} (h : Accounted cfg notes)
    (hworld : cfg.world.Safe notes → w.Safe notes)
    (hslot : ∀ p, cfg.slots i = some p → AboutToStash p notes → w.Safe notes) :
    Accounted (⟨w, Function.update cfg.slots i q⟩ : Config exportPlatform ι Unit) notes := by
  rcases h with hsafe | ⟨j, p, hp, habout⟩
  · exact Or.inl (hworld hsafe)
  · by_cases hji : j = i
    · subst hji
      exact Or.inl (hslot p hp habout)
    · exact Or.inr ⟨j, p, (Function.update_of_ne hji _ _).trans hp, habout⟩

theorem accounted_step {i : ι} {k : op.Reply → ExportProg Unit}
    (hpending : cfg.slots i = some (.call op k)) (hstashes : Stashes (.call op k))
    (haccounted : ∀ notes ∈ cfg.world.spent, Accounted cfg notes)
    (hcounts : SparesExport op cfg.world c) (h : performExport op cfg.world c = some (r, w'))
    (hspent : notes ∈ w'.spent) :
    Accounted (⟨w', Function.update cfg.slots i (some (k r))⟩ : Config exportPlatform ι Unit)
      notes := by
  rcases spent_perform h hspent with hbefore | ⟨amountMsats, rfl, hreply⟩
  · refine accounted_update (haccounted notes hbefore)
      (fun hsafe => hsafe.perform hbefore hcounts h) fun p hp habout => ?_
    obtain rfl := Option.some.inj (hpending.symm.trans hp)
    obtain ⟨input, k', heq, rfl⟩ := habout
    obtain ⟨rfl, hk⟩ := Prog.call.inj heq
    exact Or.inr (readable_of_stash hcounts h)
  · obtain rfl := eq_of_heq hreply
    exact Or.inr ⟨i, _, Function.update_self _ _ _, hstashes.1 notes⟩

/-- In every interleaving of exports, from any content of the slot, in which nothing is stashed,
probed or cleared over the notes of another flow, no stashing fails and no flow is cut off between
a spend and its stashing, the notes of a spend can be read from the slot until their import is
confirmed, but for the moment before their flow stashes them. -/
theorem export_notes_kept {cfg : Config exportPlatform ι Unit}
    (h : Run (Config.exec exportFlow) (Idle fun w : ExportWorld => w.spent = []) ExportsSpared cfg)
    (hspent : notes ∈ cfg.world.spent) :
    notes ∈ cfg.world.confirmed ∨ cfg.world.Readable notes ∨
      ∃ i p, cfg.slots i = some p ∧ AboutToStash p notes := by
  have hinv : (∀ notes ∈ cfg.world.spent, Accounted cfg notes) ∧
      ∀ i p, cfg.slots i = some p → Stashes p := by
    refine Run.invariant (I := fun cfg : Config exportPlatform ι Unit =>
      (∀ notes ∈ cfg.world.spent, Accounted cfg notes) ∧
        ∀ i p, cfg.slots i = some p → Stashes p) ?_ ?_ h
    · rintro _ ⟨w, hnone, rfl⟩
      refine ⟨fun notes hmem => ?_, fun i p hp => by cases hp⟩
      change notes ∈ w.spent at hmem
      rw [hnone] at hmem
      cases hmem
    · rintro cfg ev cfg' hcounts ⟨haccounted, hstashes⟩ hexec
      cases exec_happens hexec with
      | start i flow =>
        refine ⟨fun notes hmem => ?_, fun j p hp => ?_⟩
        · exact accounted_update (haccounted notes hmem) id
            fun p hp habout => absurd habout (hcounts p notes hp)
        · rcases slot_of_update hp with ⟨-, hp⟩ | ⟨-, hp⟩
          · obtain rfl := Option.some.inj hp
            exact stashes_exportFlow flow
          · exact hstashes j p hp
      | stop i =>
        refine ⟨fun notes hmem => ?_, fun j p hp => ?_⟩
        · exact accounted_update (haccounted notes hmem) id
            fun p hp habout => absurd habout (hcounts p notes hp)
        · rcases slot_of_update hp with ⟨-, hp⟩ | ⟨-, hp⟩
          · cases hp
          · exact hstashes j p hp
      | @step i c op k r w' hpending hperform =>
        have hcall := hstashes i _ hpending
        refine ⟨fun notes hmem => accounted_step hpending hcall haccounted
          (hcounts op k hpending) hperform hmem, fun j p hp => ?_⟩
        rcases slot_of_update hp with ⟨-, hp⟩ | ⟨-, hp⟩
        · obtain rfl := Option.some.inj hp
          exact hcall.2 r
        · exact hstashes j p hp
      | drift hdrift => cases hdrift
  rcases hinv.1 notes hspent with hsafe | habout
  · exact hsafe.imp_right Or.inl
  · exact Or.inr (Or.inr habout)

end Runs

/-! ### Sample runs -/

def aboutToStash : Option (ExportProg Unit) → Option String
  | some (.call (.stash input) _) => some input.notes
  | _ => none

theorem aboutToStash_of {p : ExportProg Unit} (hq : q = some p)
    (h : AboutToStash p notes) : aboutToStash q = some notes := by
  obtain ⟨input, k, rfl, rfl⟩ := h
  rw [hq]
  rfl

def slotNotes (w : ExportWorld) : Option String := (getEcashExport .none w.slot).map (·.notes)

theorem readable_iff_slotNotes : w.Readable notes ↔ slotNotes w = some notes := by
  unfold slotNotes
  rw [Option.map_eq_some_iff]
  rfl

def exportSteps {ι : Type} (i : ι) (minted : String) : List (Event exportPlatform ι ExportFlow) :=
  [.step i (.storage {} 0), .step i (.mints minted), .step i (.storage {} 0)]

/-- Two exports find the slot free, spend `a` and `b`, and stash `b` over `a`. -/
theorem export_notes_lost : ∃ cfg : Config exportPlatform Bool Unit,
    Run (Config.exec exportFlow) (Idle fun w : ExportWorld => w.spent = []) (fun _ _ => True) cfg ∧
      ∃ notes ∈ cfg.world.spent, notes ∉ cfg.world.confirmed ∧ ¬ cfg.world.Readable notes ∧
        ∀ i p, cfg.slots i = some p → ¬ AboutToStash p notes := by
  have hrun : ∃ cfg : Config exportPlatform Bool Unit,
      Run (Config.exec exportFlow) (Idle fun w : ExportWorld => w.spent = [])
        (fun _ _ => True) cfg ∧
      ("a" ∈ cfg.world.spent && "a" ∉ cfg.world.confirmed && slotNotes cfg.world = some "b" &&
        [true, false].all fun i => aboutToStash (cfg.slots i) = none) = true :=
    Run.exists_of_checked ⟨{}, rfl, rfl⟩ (fun _ _ => true) (fun _ _ _ => trivial)
      [.start true (.balance 1000 none), .start false (.claim 1000 "e"),
        .step true (.storage {} 0), .step false (.storage {} 0),
        .step true (.mints "a"), .step false (.mints "b"),
        .step true (.storage {} 0), .step false (.storage {} 0)] (by decide +kernel)
  obtain ⟨cfg, hrun, htest⟩ := hrun
  simp only [Bool.and_eq_true, decide_eq_true_eq, List.all_eq_true] at htest
  obtain ⟨⟨⟨hspent, hconfirmed⟩, hslot⟩, habout⟩ := htest
  refine ⟨cfg, hrun, "a", hspent, hconfirmed, fun hreadable => ?_, fun i p hp hstash => ?_⟩
  · rw [readable_iff_slotNotes, hslot] at hreadable
    exact absurd (Option.some.inj hreadable) (by decide)
  · have hnone := habout i (by cases i <;> decide)
    rw [aboutToStash_of hp hstash] at hnone
    cases hnone

/-- Whether a choice without faults counts at a call. -/
def sparesExport : ExportOp → ExportWorld → ExportChoice → Bool
  | .assertWritable _, _, .storage f _ => !f.read
  | .stash _, w, .storage f _ =>
    f.write ≠ some .lost && (slotNotes w).all fun notes => notes ∈ w.confirmed
  | .clear, w, .storage _ _ => (slotNotes w).all fun notes => notes ∈ w.confirmed
  | _, _, _ => true

def disturbsNoExport (cfg : Config exportPlatform Bool Unit) :
    Event exportPlatform Bool ExportFlow → Bool
  | .step i c =>
    match cfg.slots i with
    | some (.call op _) => sparesExport op cfg.world c
    | _ => true
  | .start i _ | .stop i => aboutToStash (cfg.slots i) = none
  | .drift _ => true

theorem spared_of_slotNotes {own : String → Prop}
    (h : ((slotNotes w).all fun notes => notes ∈ w.confirmed) = true) : w.Spared own := by
  intro entry hslot
  have hnotes : slotNotes w = some entry.notes :=
    readable_iff_slotNotes.mp (readable_iff.mpr ⟨entry, hslot, rfl⟩)
  rw [hnotes] at h
  exact Or.inr (Or.inr (of_decide_eq_true h))

theorem sparesExport_sound (h : sparesExport op w c = true) : SparesExport op w c := by
  cases op with
  | assertWritable =>
    cases c with
    | storage f now =>
      intro hread
      have hread' : (!f.read) = true := h
      rw [hread] at hread'
      cases hread'
    | _ => trivial
  | stash =>
    cases c with
    | storage f now =>
      obtain ⟨hwrite, hslot⟩ := Bool.and_eq_true_iff.mp h
      exact ⟨of_decide_eq_true hwrite, spared_of_slotNotes hslot⟩
    | _ => trivial
  | clear =>
    cases c with
    | storage =>
      have hspared : w.Spared fun _ => False := spared_of_slotNotes h
      exact hspared
    | _ => trivial
  | _ => trivial

theorem exportsSpared_of_disturbsNoExport (cfg : Config exportPlatform Bool Unit)
    (ev : Event exportPlatform Bool ExportFlow) (h : disturbsNoExport cfg ev = true) :
    ExportsSpared cfg ev := by
  cases ev with
  | step i c =>
    intro op k hpending
    have hspares : sparesExport op cfg.world c = true := by
      unfold disturbsNoExport at h
      dsimp only at h
      rw [hpending] at h
      exact h
    exact sparesExport_sound hspares
  | start i flow | stop i =>
    intro p notes hp hstash
    have hnone : aboutToStash (cfg.slots i) = none := of_decide_eq_true h
    rw [aboutToStash_of hp hstash] at hnone
    cases hnone
  | drift => trivial

/-- An export is confirmed and cleared before the next one spends, which stays in the slot. -/
theorem export_notes_kept_sample : ∃ cfg : Config exportPlatform Bool Unit,
    cfg.world.spent = ["b", "a"] ∧ "b" ∉ cfg.world.confirmed ∧
      ("b" ∈ cfg.world.confirmed ∨ cfg.world.Readable "b" ∨
        ∃ i p, cfg.slots i = some p ∧ AboutToStash p "b") := by
  have hrun : ∃ cfg : Config exportPlatform Bool Unit,
      Run (Config.exec exportFlow) (Idle fun w : ExportWorld => w.spent = []) ExportsSpared cfg ∧
      (cfg.world.spent = ["b", "a"] && "b" ∉ cfg.world.confirmed) = true :=
    Run.exists_of_checked ⟨{ slot := .garbled }, rfl, rfl⟩ disturbsNoExport
      exportsSpared_of_disturbsNoExport
      ([.start true (.balance 1000 none)] ++ exportSteps true "a" ++
        [.step true .returns, .step true (.storage {} 0), .step true (.storage {} 0),
          .start false (.claim 1000 "e")] ++ exportSteps false "b") (by decide +kernel)
  obtain ⟨cfg, hrun, htest⟩ := hrun
  obtain ⟨hspent, hconfirmed⟩ := Bool.and_eq_true_iff.mp htest
  have hboth : cfg.world.spent = ["b", "a"] := of_decide_eq_true hspent
  exact ⟨cfg, hboth, of_decide_eq_true hconfirmed,
    export_notes_kept hrun (hboth ▸ List.mem_cons_self)⟩

end ChamaEscrow
