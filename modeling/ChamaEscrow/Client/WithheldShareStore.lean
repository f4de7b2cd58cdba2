import ChamaEscrow.Client.Storage
import ChamaEscrow.Js.Number
import ChamaEscrow.Library.Machine

/-!
# The store of withheld shares

`withheld-share-store.ts`: the funder's copy of the two shares that a LOCK holds back, under the
escrow and the hash of the notes, with the step that this device has chosen for it: a RELEASE or a
WITHDRAW.  Every write is read back, and an operation that cannot show its effect stored says no.

* `never_both_steps`: once one step was authorised for a LOCK, the other never is, as long as no
  save drops the record of the release.
* `both_steps`: a release that is older than the store keeps it is forgotten, and the notes of its
  LOCK are retired afterwards.
-/

namespace ChamaEscrow

open Js Library

/-! ### Records -/

structure HeldShare where
  shareIndex : JsNumber
  plaintext : String
  deriving DecidableEq

/-- What can become of the held-back shares. -/
inductive WithheldStep
  | release
  | withdraw
  deriving DecidableEq

structure WithheldShareRecord where
  escrowId : String
  notesHash : String
  shares : List HeldShare
  step : Option WithheldStep := none
  savedAt : JsNumber
  settledAt : Option JsNumber := none
  deriving DecidableEq

abbrev WithheldRecords := OrderedMap String WithheldShareRecord

def settledRecordTtlMs : JsNumber := 60 * 24 * 60 * 60 * 1000

def keyOf (escrowId notesHash : String) : String := escrowId ++ ":" ++ notesHash

def WithheldShareRecord.key (record : WithheldShareRecord) : String :=
  keyOf record.escrowId record.notesHash

/-- Whether a save drops a record: a release that was chosen too long ago. -/
def isFinished (now : JsNumber) (r : WithheldShareRecord) : Bool :=
  r.step = some .release && settledRecordTtlMs < now - r.settledAt.getD r.savedAt

def tombstone (r : WithheldShareRecord) : WithheldShareRecord :=
  if r.step = some .withdraw then { r with shares := [] } else r

/-! ### Reading and writing -/

/-- What can go wrong in one operation: its read, its write, which may also be dropped without a
word, and the read that checks the write. -/
structure CheckedFaults extends Faults where
  dropped : Bool := false
  readBack : Bool := false
  deriving DecidableEq

/-- `loadAll`: a store that cannot be read is not an empty one. -/
def loadAll (failed : Bool) (s : Stored WithheldRecords) : Option WithheldRecords :=
  if failed then none
  else match s with
    | .missing => some .empty
    | .garbled => none
    | .value all => some all

/-- `writeAll`: whether the write shows when it is read back, and what is stored then. -/
def writeAll (f : CheckedFaults) (s : Stored WithheldRecords) (all : WithheldRecords)
    (check : WithheldRecords → Bool) : Bool × Stored WithheldRecords :=
  let written := if f.dropped then (.ok (), s) else s.writeItem f.toFaults all
  match written.1 with
  | .ok () => ((loadAll f.readBack written.2).any check, written.2)
  | .error _ => (false, written.2)

/-! ### Operations -/

/-- `save`. -/
def saveShares (f : CheckedFaults) (now : JsNumber) (record : WithheldShareRecord)
    (s : Stored WithheldRecords) : Bool × Stored WithheldRecords :=
  match loadAll f.read s with
  | none => (false, s)
  | some all =>
    match all.get record.key with
    | some existing => (existing.shares = record.shares && existing.step.isNone, s)
    | none =>
      let kept := (all.filter fun _ r => !isFinished now r).map fun _ r => tombstone r
      writeAll f s (kept.set record.key { record with step := none }) fun back =>
        (back.get record.key).any fun r => r.shares = record.shares

/-- `load`. -/
def loadShares (failed : Bool) (escrowId notesHash : String) (s : Stored WithheldRecords) :
    Option WithheldShareRecord :=
  (loadAll failed s).bind fun all => all.get (keyOf escrowId notesHash)

/-- `choose`. -/
def chooseStep (f : CheckedFaults) (now : JsNumber) (escrowId notesHash : String)
    (step : WithheldStep) (s : Stored WithheldRecords) : Bool × Stored WithheldRecords :=
  match loadAll f.read s with
  | none => (false, s)
  | some all =>
    match all.get (keyOf escrowId notesHash) with
    | none => (false, s)
    | some record =>
      match record.step with
      | some chosen => (chosen = step, s)
      | none =>
        writeAll f s
          (all.set (keyOf escrowId notesHash)
            { record with step := some step, settledAt := some now })
          fun back => (back.get (keyOf escrowId notesHash)).any fun r => r.step = some step

def retired (now : JsNumber) (escrowId notesHash : String) (record : Option WithheldShareRecord) :
    WithheldShareRecord :=
  { escrowId, notesHash
    shares := (record.map (·.shares)).getD []
    savedAt := (record.map (·.savedAt)).getD now
    step := some .withdraw
    settledAt := some now }

/-- `retire`. -/
def retireShares (f : CheckedFaults) (now : JsNumber) (escrowId notesHash : String)
    (s : Stored WithheldRecords) : Bool × Stored WithheldRecords :=
  match loadAll f.read s with
  | none => (false, s)
  | some all =>
    match (all.get (keyOf escrowId notesHash)).bind (·.step) with
    | some chosen => (chosen = .withdraw, s)
    | none =>
      writeAll f s
        (all.set (keyOf escrowId notesHash)
          (retired now escrowId notesHash (all.get (keyOf escrowId notesHash))))
        fun back => (back.get (keyOf escrowId notesHash)).any fun r => r.step = some .withdraw

/-! ### Histories -/

/-- An operation of the store. -/
inductive WithheldOp
  | save (record : WithheldShareRecord)
  | choose (escrowId notesHash : String) (step : WithheldStep)
  | retire (escrowId notesHash : String)

/-- The operation, its clock reading and its faults. -/
structure WithheldCall where
  op : WithheldOp
  now : JsNumber
  faults : CheckedFaults := {}

/-- What is stored, and the steps that were authorised so far. -/
structure StepHistory where
  stored : Stored WithheldRecords
  authorized : List (String × String × WithheldStep)

def WithheldCall.run (c : WithheldCall) (s : Stored WithheldRecords) :
    Bool × Stored WithheldRecords :=
  match c.op with
  | .save record => saveShares c.faults c.now record s
  | .choose escrowId notesHash step => chooseStep c.faults c.now escrowId notesHash step s
  | .retire escrowId notesHash => retireShares c.faults c.now escrowId notesHash s

def WithheldOp.asks : WithheldOp → Option (String × String × WithheldStep)
  | .save _ => none
  | .choose escrowId notesHash step => some (escrowId, notesHash, step)
  | .retire escrowId notesHash => some (escrowId, notesHash, .withdraw)

def StepHistory.step (st : StepHistory) (c : WithheldCall) : Except Unit StepHistory :=
  .ok
    { stored := (c.run st.stored).2
      authorized := (if (c.run st.stored).1 then c.op.asks.toList else []) ++ st.authorized }

/-- Nothing was authorised yet, whatever is stored. -/
def StepHistory.Unasked (st : StepHistory) : Prop := st.authorized = []

def records : Stored WithheldRecords → WithheldRecords
  | .value all => all
  | _ => .empty

/-- The calls that count: a save does not come when a release that was authorised is to be
dropped. -/
def Unpruned (st : StepHistory) (c : WithheldCall) : Prop :=
  ∀ record, c.op = .save record → ∀ escrowId notesHash,
    (escrowId, notesHash, .release) ∈ st.authorized →
      ((records st.stored).get (keyOf escrowId notesHash)).all fun r => !isFinished c.now r

/-! ### The step on record -/

def stepOf (s : Stored WithheldRecords) (key : String) : Option WithheldStep :=
  ((records s).get key).bind (·.step)

variable {f : CheckedFaults} {now : JsNumber} {s : Stored WithheldRecords} {key : String}
  {step : WithheldStep}

variable {all : WithheldRecords}

theorem records_of_loadAll {failed : Bool} (h : loadAll failed s = some all) : records s = all := by
  unfold loadAll at h
  split_ifs at h
  cases s with
  | garbled => cases h
  | missing | value => exact Option.some.inj h

theorem writeAll_stored (f : CheckedFaults) (s : Stored WithheldRecords) (all : WithheldRecords)
    (check : WithheldRecords → Bool) :
    (writeAll f s all check).2 = .value all ∨ (writeAll f s all check).2 = s := by
  have hwritten : (writeAll f s all check).2 =
      (if f.dropped then ((.ok () : Except StorageError Unit), s)
        else s.writeItem f.toFaults all).2 := by
    unfold writeAll
    dsimp only
    split <;> rfl
  rw [hwritten]
  split_ifs
  · exact Or.inr rfl
  · exact (writeItem_cases f.toFaults s all).imp_right fun h => h.2

variable {check : WithheldRecords → Bool}

theorem writeAll_checked (h : (writeAll f s all check).1 = true) :
    check (records (writeAll f s all check).2) = true := by
  unfold writeAll at h ⊢
  dsimp only at h ⊢
  split at h
  · obtain ⟨back, hback, hcheck⟩ := (Option.any_eq_true _ _).mp h
    rw [records_of_loadAll hback]
    exact hcheck
  · cases h

theorem stepOf_writeAll
    (hall : (all.get key).bind (·.step) = some step) (hs : stepOf s key = some step) :
    stepOf (writeAll f s all check).2 key = some step := by
  rcases writeAll_stored f s all check with hstored | hstored
  · rw [hstored]
    exact hall
  · rw [hstored]
    exact hs

theorem stepOf_set {slot : String} {r : WithheldShareRecord}
    (hslot : (all.get slot).bind (·.step) = none) (hall : (all.get key).bind (·.step) = some step) :
    ((all.set slot r).get key).bind (·.step) = some step := by
  rw [OrderedMap.get_set, if_neg]
  · exact hall
  · rintro rfl
    rw [hslot] at hall
    cases hall

section Calls

variable {escrowId notesHash : String} {asked : WithheldStep}

/-- A step that `choose` authorises is on record. -/
theorem stepOf_of_choose (h : (chooseStep f now escrowId notesHash asked s).1 = true) :
    stepOf (chooseStep f now escrowId notesHash asked s).2 (keyOf escrowId notesHash)
      = some asked := by
  unfold chooseStep at h ⊢
  split at h
  · cases h
  · rename_i all hall
    split at h
    · cases h
    · rename_i record hrecord
      split at h
      · rename_i chosen hchosen
        -- The step was chosen before.
        obtain rfl := of_decide_eq_true h
        unfold stepOf
        rw [records_of_loadAll hall, hrecord]
        exact hchosen
      · have hcheck := writeAll_checked h
        obtain ⟨r, hr, hstep⟩ := (Option.any_eq_true _ _).mp hcheck
        unfold stepOf
        rw [hr]
        exact of_decide_eq_true hstep

/-- The notes that `retire` authorises to be taken back are on record as withdrawn. -/
theorem stepOf_of_retire (h : (retireShares f now escrowId notesHash s).1 = true) :
    stepOf (retireShares f now escrowId notesHash s).2 (keyOf escrowId notesHash)
      = some .withdraw := by
  unfold retireShares at h ⊢
  split at h
  · cases h
  · rename_i all hall
    split at h
    · rename_i chosen hchosen
      obtain rfl := of_decide_eq_true h
      unfold stepOf
      rw [records_of_loadAll hall]
      exact hchosen
    · have hcheck := writeAll_checked h
      obtain ⟨r, hr, hstep⟩ := (Option.any_eq_true _ _).mp hcheck
      unfold stepOf
      rw [hr]
      exact of_decide_eq_true hstep

/-- `choose` never changes a step. -/
theorem stepOf_choose (h : stepOf s key = some step) :
    stepOf (chooseStep f now escrowId notesHash asked s).2 key = some step := by
  unfold chooseStep
  split
  · exact h
  · rename_i all hall
    split
    · exact h
    · rename_i record hrecord
      split
      · exact h
      · rename_i hchosen
        have hget : (all.get key).bind (·.step) = some step := by
          rw [← records_of_loadAll hall]
          exact h
        refine stepOf_writeAll (stepOf_set ?_ hget) h
        rw [hrecord]
        exact hchosen

/-- `retire` never changes a step. -/
theorem stepOf_retire (h : stepOf s key = some step) :
    stepOf (retireShares f now escrowId notesHash s).2 key = some step := by
  unfold retireShares
  split
  · exact h
  · rename_i all hall
    split
    · exact h
    · rename_i hnone
      have hget : (all.get key).bind (·.step) = some step := by
        rw [← records_of_loadAll hall]
        exact h
      exact stepOf_writeAll (stepOf_set hnone hget) h

/-- `save` changes no step that it does not drop. -/
theorem stepOf_save {record : WithheldShareRecord} (h : stepOf s key = some step)
    (hkept : ((records s).get key).all fun r => !isFinished now r) :
    stepOf (saveShares f now record s).2 key = some step := by
  unfold saveShares
  split
  · exact h
  · rename_i all hall
    split
    · exact h
    · rename_i hfree
      unfold stepOf at h
      rw [records_of_loadAll hall] at h hkept
      obtain ⟨r, hr, hstep⟩ := Option.bind_eq_some_iff.mp h
      rw [hr, Option.all_some] at hkept
      refine stepOf_writeAll (stepOf_set ?_ ?_) ?_
      · rw [OrderedMap.get_map, OrderedMap.get_filter, hfree]
        rfl
      · rw [OrderedMap.get_map, OrderedMap.get_filter, hr, Option.filter_some, if_pos hkept]
        change (tombstone r).step = some step
        unfold tombstone
        split_ifs <;> exact hstep
      · unfold stepOf
        rw [records_of_loadAll hall, hr]
        exact hstep

end Calls

/-! ### Runs -/

def OnRecord (st : StepHistory) : Prop :=
  ∀ escrowId notesHash step, (escrowId, notesHash, step) ∈ st.authorized →
    stepOf st.stored (keyOf escrowId notesHash) = some step

theorem stepOf_of_run {c : WithheldCall} {escrowId notesHash : String}
    (hasks : c.op.asks = some (escrowId, notesHash, step)) (h : (c.run s).1 = true) :
    stepOf (c.run s).2 (keyOf escrowId notesHash) = some step := by
  obtain ⟨op, now, f⟩ := c
  cases op with
  | save => cases hasks
  | choose =>
    obtain ⟨rfl, rfl, rfl⟩ := by simpa [WithheldOp.asks] using hasks
    exact stepOf_of_choose h
  | retire =>
    obtain ⟨rfl, rfl, rfl⟩ := by simpa [WithheldOp.asks] using hasks
    exact stepOf_of_retire h

theorem OnRecord.call {st st' : StepHistory} {c : WithheldCall} (h : OnRecord st)
    (hcounts : Unpruned st c) (hstep : st.step c = .ok st') : OnRecord st' := by
  obtain rfl := Except.ok.inj hstep
  intro escrowId notesHash step hmem
  rcases List.mem_append.mp hmem with hnew | hold
  · split_ifs at hnew with htrue
    · exact stepOf_of_run (Option.mem_toList.mp hnew) htrue
    · cases hnew
  · have hbefore := h escrowId notesHash step hold
    obtain ⟨op, now, f⟩ := c
    cases op with
    | choose => exact stepOf_choose hbefore
    | retire => exact stepOf_retire hbefore
    | save record =>
      refine stepOf_save hbefore ?_
      cases step with
      | release => exact hcounts record rfl escrowId notesHash hold
      | withdraw =>
        -- Withdrawn notes are never dropped.
        obtain ⟨r, hr, hwithdraw⟩ := Option.bind_eq_some_iff.mp hbefore
        rw [hr, Option.all_some]
        unfold isFinished
        rw [hwithdraw]
        rfl

/-- Once a RELEASE was authorised for a LOCK, a WITHDRAW never is, and the other way round, in every
history in which no save drops a release that was authorised. -/
theorem never_both_steps {st : StepHistory}
    (h : Run StepHistory.step StepHistory.Unasked Unpruned st) (escrowId notesHash : String) :
    ¬ ((escrowId, notesHash, .release) ∈ st.authorized ∧
      (escrowId, notesHash, .withdraw) ∈ st.authorized) := by
  have hrecord : OnRecord st := by
    refine Run.invariant (I := OnRecord) ?_ ?_ h
    · intro st hunasked escrowId notesHash step hmem
      rw [hunasked] at hmem
      cases hmem
    · exact fun st c st' hcounts hinv hstep => hinv.call hcounts hstep
  rintro ⟨hrelease, hwithdraw⟩
  have hstep := hrecord _ _ _ hrelease
  rw [hrecord _ _ _ hwithdraw] at hstep
  cases hstep

/-! ### Sample histories -/

def sampleSave (escrowId : String) (now : JsNumber) : WithheldCall :=
  { op := .save
      { escrowId, notesHash := "h", shares := [⟨0, "a"⟩, ⟨1, "b"⟩], savedAt := now }, now }

def sampleHistory (later : JsNumber) : List WithheldCall :=
  [sampleSave "e" 0, { op := .choose "e" "h" .release, now := 0 }, sampleSave "f" later,
    { op := .retire "e" "h", now := later }]

theorem unasked_start : StepHistory.Unasked ⟨.missing, []⟩ := rfl

/-- Whether a call counts, for certain: it drops no record. -/
def prunesNothing (st : StepHistory) (c : WithheldCall) : Bool :=
  !(records st.stored).any fun _ r => isFinished c.now r

theorem unpruned_of_prunesNothing (st : StepHistory) (c : WithheldCall)
    (h : prunesNothing st c = true) : Unpruned st c := by
  intro record _ escrowId notesHash _
  rw [Option.all_eq_true]
  intro r hr
  by_contra hfinished
  have hany : ((records st.stored).any fun _ r => isFinished c.now r) = true :=
    (OrderedMap.any_eq_true _ _).mpr ⟨_, r, hr, by simpa using hfinished⟩
  unfold prunesNothing at h
  rw [hany] at h
  cases h

/-- The notes of a LOCK that was released a moment ago cannot be taken back. -/
theorem never_both_steps_released : ∃ st : StepHistory, ("e", "h", .release) ∈ st.authorized ∧
    ¬ (("e", "h", .release) ∈ st.authorized ∧ ("e", "h", .withdraw) ∈ st.authorized) := by
  have hrun : ∃ st, Run StepHistory.step StepHistory.Unasked Unpruned st ∧
      decide (("e", "h", WithheldStep.release) ∈ st.authorized) = true :=
    Run.exists_of_checked unasked_start prunesNothing unpruned_of_prunesNothing
      (sampleHistory 1) (by decide +kernel)
  obtain ⟨st, hrun, hreleased⟩ := hrun
  exact ⟨st, of_decide_eq_true hreleased, never_both_steps hrun "e" "h"⟩

/-- Sixty days and a millisecond after the RELEASE they can. -/
theorem both_steps : ∃ st : StepHistory,
    Run StepHistory.step StepHistory.Unasked (fun _ _ => True) st ∧
      ("e", "h", .release) ∈ st.authorized ∧ ("e", "h", .withdraw) ∈ st.authorized := by
  have hrun : ∃ st, Run StepHistory.step StepHistory.Unasked (fun _ _ => True) st ∧
      decide (("e", "h", WithheldStep.release) ∈ st.authorized ∧
        ("e", "h", WithheldStep.withdraw) ∈ st.authorized) = true :=
    Run.exists_of_checked unasked_start (fun _ _ => true) (fun _ _ _ => trivial)
      (sampleHistory 5184000001) (by decide +kernel)
  obtain ⟨st, hrun, hboth⟩ := hrun
  exact ⟨st, hrun, of_decide_eq_true hboth⟩

end ChamaEscrow
