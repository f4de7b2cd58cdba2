import ChamaEscrow.Client.Storage
import ChamaEscrow.Js.Number

/-!
# The payout journal

`payout-journal.ts`: one record for each escrow that says how far its payout has come, kept so that
a retry does not pay twice.  Every function reads the whole journal, and those that change a record
write it back.

`recordFor` is the record that the journal holds for an escrow.  For each function there is a lemma
about what it leaves there, whatever the faults; `updateJournal_other` speaks of the other escrows.
-/

namespace ChamaEscrow

open Js Library

/-! ### Records -/

/-- How far a payout has come. -/
inductive PayoutStatus
  | intent
  | submitted
  | settled
  deriving DecidableEq

structure PayoutRecord where
  escrowId : String
  status : PayoutStatus
  operationId : Option String
  amountMsats : Option JsNumber
  createdAt : JsNumber
  settledAt : Option JsNumber

abbrev Journal := OrderedMap String PayoutRecord

/-! ### Reading -/

/-- `loadJournalStrict`: throws when something is stored that is not a journal. -/
def loadJournalStrict (f : Faults) (s : Stored Journal) : Except StorageError Journal :=
  match s.readItem f with
  | .missing => .ok .empty
  | .garbled => .error .unreadable
  | .value journal => .ok journal

/-- `loadJournal`: what cannot be read is empty. -/
def loadJournal (f : Faults) (s : Stored Journal) : Journal :=
  match loadJournalStrict f s with
  | .ok journal => journal
  | .error _ => .empty

def saveJournal (f : Faults) (s : Stored Journal) (journal : Journal) :
    Except StorageError Unit × Stored Journal :=
  s.writeItem f journal

def assertPayoutJournalReadable (f : Faults) (s : Stored Journal) : Except StorageError Unit :=
  match loadJournalStrict f s with
  | .ok _ => .ok ()
  | .error e => .error e

/-- `assertPayoutJournalWritable`: the journal is readable and a probe key can be written; the
journal stays as it is. -/
def assertPayoutJournalWritable (f : Faults) (s : Stored Journal) : Except StorageError Unit :=
  match loadJournalStrict f s with
  | .ok _ => if f.write.isSome then .error .access else .ok ()
  | .error e => .error e

def getPayoutRecord (f : Faults) (s : Stored Journal) (escrowId : String) : Option PayoutRecord :=
  (loadJournal f s).get escrowId

/-! ### Writing -/

def updateJournal (f : Faults) (s : Stored Journal) (change : Journal → Option Journal) :
    Except StorageError Unit × Stored Journal :=
  match loadJournalStrict f s with
  | .error e => (.error e, s)
  | .ok journal =>
    match change journal with
    | some next => saveJournal f s next
    | none => (.ok (), s)

/-- What `recordPayoutIntent` writes: nothing over a submitted or a settled record. -/
def withIntent (now : JsNumber) (escrowId : String) (amountMsats : Option JsNumber)
    (journal : Journal) : Option Journal :=
  let existing := journal.get escrowId
  if existing.any fun r => r.status = .settled || r.status = .submitted then none
  else some (journal.set escrowId {
    escrowId
    status := .intent
    operationId := none
    amountMsats := amountMsats.or (existing.bind (·.amountMsats))
    createdAt := (existing.map (·.createdAt)).getD now
    settledAt := none })

def recordPayoutIntent (f : Faults) (now : JsNumber) (escrowId : String)
    (amountMsats : Option JsNumber) (s : Stored Journal) :
    Except StorageError Unit × Stored Journal :=
  updateJournal f s (withIntent now escrowId amountMsats)

/-- What `recordPayoutSubmitted` writes: a settled record is never taken back. -/
def withSubmitted (now : JsNumber) (escrowId : String) (operationId : Option String)
    (amountMsats : Option JsNumber) (journal : Journal) : Option Journal :=
  let existing := journal.get escrowId
  if existing.any fun r => r.status = .settled then none
  else some (journal.set escrowId {
    escrowId
    status := .submitted
    operationId := operationId.or (existing.bind (·.operationId))
    amountMsats := amountMsats.or (existing.bind (·.amountMsats))
    createdAt := (existing.map (·.createdAt)).getD now
    settledAt := none })

def recordPayoutSubmitted (f : Faults) (now : JsNumber) (escrowId : String)
    (operationId : Option String) (amountMsats : Option JsNumber) (s : Stored Journal) :
    Except StorageError Unit × Stored Journal :=
  updateJournal f s (withSubmitted now escrowId operationId amountMsats)

/-- What `markPayoutSettled` writes. -/
def withSettled (now : JsNumber) (escrowId : String) (operationId : Option String)
    (journal : Journal) : Option Journal :=
  let existing := journal.get escrowId
  some (journal.set escrowId {
    escrowId
    status := .settled
    operationId := operationId.or (existing.bind (·.operationId))
    amountMsats := existing.bind (·.amountMsats)
    createdAt := (existing.map (·.createdAt)).getD now
    settledAt := some now })

def markPayoutSettled (f : Faults) (now : JsNumber) (escrowId : String)
    (operationId : Option String) (s : Stored Journal) :
    Except StorageError Unit × Stored Journal :=
  updateJournal f s (withSettled now escrowId operationId)

/-- What `clearPayoutRecord` writes. -/
def withoutRecord (escrowId : String) (journal : Journal) : Option Journal :=
  if (journal.get escrowId).isSome then some (journal.erase escrowId) else none

/-- `clearPayoutRecord`: says nothing when it fails. -/
def clearPayoutRecord (f : Faults) (escrowId : String) (s : Stored Journal) : Stored Journal :=
  (updateJournal f s (withoutRecord escrowId)).2

/-! ### What the journal holds for an escrow -/

def recordFor (escrowId : String) : Stored Journal → Option PayoutRecord
  | .value journal => journal.get escrowId
  | _ => none

def Advanced (escrowId : String) (s : Stored Journal) : Prop :=
  ∃ r, recordFor escrowId s = some r ∧ r.status ≠ .intent

variable {f : Faults} {now : JsNumber} {id other : String} {s : Stored Journal}

@[simp]
theorem recordFor_value (journal : Journal) : recordFor id (.value journal) = journal.get id := rfl

theorem getPayoutRecord_eq :
    getPayoutRecord f s id = if f.read then none else recordFor id s := by
  unfold getPayoutRecord loadJournal loadJournalStrict
  cases hread : f.read with
  | true => rw [readItem_failed hread]; rfl
  | false => rw [readItem_ok hread]; cases s <;> rfl

theorem get_of_load {journal : Journal} (h : loadJournalStrict f s = .ok journal) (key : String) :
    journal.get key = if f.read then none else recordFor key s := by
  have hget : getPayoutRecord f s key = if f.read then none else recordFor key s :=
    getPayoutRecord_eq
  unfold getPayoutRecord loadJournal at hget
  rw [h] at hget
  exact hget

theorem updateJournal_cases (f : Faults) (s : Stored Journal) (change : Journal → Option Journal) :
    (updateJournal f s change).2 = s ∨
      ∃ journal next, loadJournalStrict f s = .ok journal ∧ change journal = some next ∧
        (updateJournal f s change).2 = .value next := by
  unfold updateJournal
  cases hload : loadJournalStrict f s with
  | error e => exact Or.inl rfl
  | ok journal =>
    dsimp only
    cases hchange : change journal with
    | none => exact Or.inl rfl
    | some next =>
      rcases writeItem_cases f s next with hvalue | ⟨-, hsame⟩
      · exact Or.inr ⟨journal, next, rfl, hchange, hvalue⟩
      · exact Or.inl hsame

variable {change : Journal → Option Journal}

theorem updateJournal_ok (h : (updateJournal f s change).1 = .ok ()) :
    ∃ journal, loadJournalStrict f s = .ok journal ∧
      ((change journal = none ∧ (updateJournal f s change).2 = s) ∨
        ∃ next, change journal = some next ∧ (updateJournal f s change).2 = .value next) := by
  unfold updateJournal at h ⊢
  cases hload : loadJournalStrict f s with
  | error e =>
    rw [hload] at h
    cases h
  | ok journal =>
    rw [hload] at h
    dsimp only at h ⊢
    refine ⟨journal, rfl, ?_⟩
    cases hchange : change journal with
    | none => exact Or.inl ⟨rfl, rfl⟩
    | some next =>
      rw [hchange] at h
      exact Or.inr ⟨next, rfl, writeItem_of_ok h⟩

/-- A function that only changes the record of one escrow leaves that of another, or loses it with
the whole journal when its read failed. -/
theorem updateJournal_other
    (hchange : ∀ journal next, change journal = some next → next.get other = journal.get other) :
    recordFor other (updateJournal f s change).2 = recordFor other s ∨
      recordFor other (updateJournal f s change).2 = none := by
  rcases updateJournal_cases f s change with hsame | ⟨journal, next, hload, hnext, hvalue⟩
  · exact Or.inl (by rw [hsame])
  · rw [hvalue, recordFor_value, hchange journal next hnext, get_of_load hload]
    split_ifs
    · exact Or.inr rfl
    · exact Or.inl rfl

/-! ### The writers -/

section Writers

variable {amount : Option JsNumber} {operationId : Option String} {journal next : Journal}

theorem withIntent_eq_some (h : withIntent now id amount journal = some next) :
    (∃ r, next.get id = some r ∧ r.status = .intent ∧ r.operationId = none) ∧
      ∀ key, key ≠ id → next.get key = journal.get key := by
  unfold withIntent at h
  dsimp only at h
  split_ifs at h
  obtain rfl := Option.some.inj h
  refine ⟨⟨_, by rw [OrderedMap.get_set, if_pos rfl], rfl, rfl⟩, fun key hkey => ?_⟩
  rw [OrderedMap.get_set, if_neg hkey]

theorem withIntent_eq_none (h : withIntent now id amount journal = none) :
    ∃ r, journal.get id = some r ∧ r.status ≠ .intent := by
  unfold withIntent at h
  dsimp only at h
  split_ifs at h with hadvanced
  obtain ⟨r, hr, hstatus⟩ := (Option.any_eq_true _ _).mp hadvanced
  refine ⟨r, hr, fun hintent => ?_⟩
  rw [hintent] at hstatus
  cases hstatus

theorem withSubmitted_eq_some (h : withSubmitted now id operationId amount journal = some next) :
    (∃ r, next.get id = some r ∧ r.status = .submitted ∧
      r.operationId = operationId.or ((journal.get id).bind (·.operationId))) ∧
      (∀ key, key ≠ id → next.get key = journal.get key) ∧
      ∀ r, journal.get id = some r → r.status ≠ .settled := by
  unfold withSubmitted at h
  dsimp only at h
  split_ifs at h with hsettled
  obtain rfl := Option.some.inj h
  refine ⟨⟨_, by rw [OrderedMap.get_set, if_pos rfl], rfl, rfl⟩, fun key hkey => ?_, ?_⟩
  · rw [OrderedMap.get_set, if_neg hkey]
  · intro r hr hstatus
    rw [hr] at hsettled
    exact hsettled (by simp [hstatus])

theorem withSettled_eq_some (h : withSettled now id operationId journal = some next) :
    (∃ r, next.get id = some r ∧ r.status = .settled) ∧
      ∀ key, key ≠ id → next.get key = journal.get key := by
  unfold withSettled at h
  obtain rfl := Option.some.inj h
  refine ⟨⟨_, by rw [OrderedMap.get_set, if_pos rfl], rfl⟩, fun key hkey => ?_⟩
  rw [OrderedMap.get_set, if_neg hkey]

theorem withoutRecord_eq_some (h : withoutRecord id journal = some next) :
    next.get id = none ∧ ∀ key, key ≠ id → next.get key = journal.get key := by
  unfold withoutRecord at h
  split_ifs at h
  obtain rfl := Option.some.inj h
  refine ⟨by rw [OrderedMap.get_erase, if_pos rfl], fun key hkey => ?_⟩
  rw [OrderedMap.get_erase, if_neg hkey]

/-- `recordPayoutIntent` leaves the journal as it is or an intent. -/
theorem recordPayoutIntent_cases (f : Faults) (now : JsNumber) (id : String)
    (amount : Option JsNumber) (s : Stored Journal) :
    (recordPayoutIntent f now id amount s).2 = s ∨
      ∃ r, recordFor id (recordPayoutIntent f now id amount s).2 = some r ∧ r.status = .intent ∧
        r.operationId = none := by
  rcases updateJournal_cases f s (withIntent now id amount) with hsame | ⟨_, _, -, hnext, hvalue⟩
  · exact Or.inl hsame
  · obtain ⟨r, hr, hintent⟩ := (withIntent_eq_some hnext).1
    exact Or.inr ⟨r, by rw [recordPayoutIntent, hvalue]; exact hr, hintent⟩

/-- When `recordPayoutIntent` does not throw it leaves an intent, unless it has found the record
advanced and left it alone. -/
theorem recordPayoutIntent_ok (h : (recordPayoutIntent f now id amount s).1 = .ok ()) :
    (Advanced id s ∧ (recordPayoutIntent f now id amount s).2 = s) ∨
      ∃ r, recordFor id (recordPayoutIntent f now id amount s).2 = some r ∧ r.status = .intent ∧
        r.operationId = none := by
  obtain ⟨journal, hload, ⟨hnone, hsame⟩ | ⟨next, hnext, hvalue⟩⟩ := updateJournal_ok h
  · obtain ⟨r, hr, hstatus⟩ := withIntent_eq_none hnone
    rw [get_of_load hload] at hr
    split_ifs at hr
    exact Or.inl ⟨⟨r, hr, hstatus⟩, hsame⟩
  · obtain ⟨r, hr, hintent⟩ := (withIntent_eq_some hnext).1
    exact Or.inr ⟨r, by rw [recordPayoutIntent, hvalue]; exact hr, hintent⟩

/-- `recordPayoutSubmitted` leaves the journal as it is or a submitted record, of the operation it
was given or else of the one in the record before, which was not settled. -/
theorem recordPayoutSubmitted_cases (f : Faults) (now : JsNumber) (id : String)
    (operationId : Option String) (amount : Option JsNumber) (s : Stored Journal) :
    (recordPayoutSubmitted f now id operationId amount s).2 = s ∨
      ∃ r, recordFor id (recordPayoutSubmitted f now id operationId amount s).2 = some r ∧
        r.status = .submitted ∧ (r.operationId = operationId ∨
          ∃ r₀, recordFor id s = some r₀ ∧ r₀.status ≠ .settled ∧
            r.operationId = r₀.operationId) := by
  rcases updateJournal_cases f s (withSubmitted now id operationId amount) with
    hsame | ⟨journal, next, hload, hnext, hvalue⟩
  · exact Or.inl hsame
  · obtain ⟨⟨r, hr, hstatus, hop⟩, -, hopen⟩ := withSubmitted_eq_some hnext
    refine Or.inr ⟨r, by rw [recordPayoutSubmitted, hvalue]; exact hr, hstatus, ?_⟩
    cases operationId with
    | some operationId => exact Or.inl hop
    | none =>
      cases hr₀ : journal.get id with
      | none => exact Or.inl (by rw [hop, hr₀]; rfl)
      | some r₀ =>
        have hload := get_of_load hload id
        rw [hr₀] at hload
        split_ifs at hload
        exact Or.inr ⟨r₀, hload.symm, hopen r₀ hr₀, by rw [hop, hr₀]; rfl⟩

/-- `markPayoutSettled` leaves the journal as it is or a settled record. -/
theorem markPayoutSettled_cases (f : Faults) (now : JsNumber) (id : String)
    (operationId : Option String) (s : Stored Journal) :
    (markPayoutSettled f now id operationId s).2 = s ∨
      ∃ r, recordFor id (markPayoutSettled f now id operationId s).2 = some r ∧
        r.status = .settled := by
  rcases updateJournal_cases f s (withSettled now id operationId) with
    hsame | ⟨_, _, -, hnext, hvalue⟩
  · exact Or.inl hsame
  · obtain ⟨r, hr, hstatus⟩ := (withSettled_eq_some hnext).1
    exact Or.inr ⟨r, by rw [markPayoutSettled, hvalue]; exact hr, hstatus⟩

/-- `clearPayoutRecord` leaves the journal as it is or without the record. -/
theorem clearPayoutRecord_cases (f : Faults) (id : String) (s : Stored Journal) :
    clearPayoutRecord f id s = s ∨ recordFor id (clearPayoutRecord f id s) = none := by
  rcases updateJournal_cases f s (withoutRecord id) with hsame | ⟨_, _, -, hnext, hvalue⟩
  · exact Or.inl hsame
  · exact Or.inr (by rw [clearPayoutRecord, hvalue]; exact (withoutRecord_eq_some hnext).1)

end Writers

/-- Whether a clear takes effect: its read works and its write is stored. -/
def Faults.Clears (f : Faults) : Prop := f.read = false ∧ f.write ≠ some .lost

instance (f : Faults) : Decidable f.Clears := inferInstanceAs (Decidable (_ ∧ _))

theorem recordFor_clearPayoutRecord (hf : f.Clears) :
    recordFor id (clearPayoutRecord f id s) = none := by
  cases s with
  | missing => simp [clearPayoutRecord, updateJournal, loadJournalStrict, hf.1, withoutRecord,
      recordFor]
  | garbled => simp [clearPayoutRecord, updateJournal, loadJournalStrict, hf.1, recordFor]
  | value journal =>
    simp only [clearPayoutRecord, updateJournal, loadJournalStrict, readItem_ok hf.1, withoutRecord]
    split_ifs with hsome
    · have hwrite : (saveJournal f (.value journal) (journal.erase id)).2 =
          .value (journal.erase id) := by
        unfold saveJournal Stored.writeItem
        cases hfault : f.write with
        | none => rfl
        | some fault =>
          cases fault with
          | lost => exact absurd hfault hf.2
          | kept => rfl
      rw [hwrite, recordFor_value, OrderedMap.get_erase, if_pos rfl]
    · simpa using hsome

end ChamaEscrow
