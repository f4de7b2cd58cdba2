import ChamaEscrow.Client.Storage
import ChamaEscrow.Js.Value
import ChamaEscrow.Library.Guarded
import ChamaEscrow.Library.Machine

/-!
# The durable money-publish journal

`durable-money-publish.ts`: the signed events that carry money, kept on the device until a relay
acknowledges them or their custody is settled otherwise.  Every function reads the whole journal and
checks it; those that change it write it back and read it again.

`Continues` says what stays of an entry, whatever is done to its journal, and `Retires` which calls
take it out.  `money_journal_law` puts the promises of the journal together.
-/

namespace ChamaEscrow.MoneyPublish

open Js Library

/-! ### Entries -/

inductive MoneyEventType
  | lock
  | premium
  deriving DecidableEq

inductive CustodyStatus
  | pending
  | expiredUnacked
  deriving DecidableEq

structure SignedEvent where
  id : String
  pubkey : String
  createdAt : JsNumber
  kind : JsNumber
  tags : List (List String)
  content : String
  sig : String

structure DurableMoneyPublishEntry where
  event : SignedEvent
  escrowId : String
  type : MoneyEventType
  spentAt : JsNumber
  liveUntil : JsNumber
  status : CustodyStatus := .pending
  lastError : Option String := none
  rejectionMessages : Option (List String) := none
  amountMsats : Option JsNumber := none
  operationId : Option String := none

namespace DurableMoneyPublishEntry

def hasId (id : String) (e : DurableMoneyPublishEntry) : Bool := e.event.id = id

def isFor (escrowId : String) (type : MoneyEventType) (e : DurableMoneyPublishEntry) : Bool :=
  e.escrowId = escrowId && e.type = type

/-- `validEntry`, on a record whose texts are texts, with a known type and a known status. -/
def validEntry (e : DurableMoneyPublishEntry) : Bool :=
  e.spentAt.isFinite && e.liveUntil.isFinite && e.spentAt < e.liveUntil

end DurableMoneyPublishEntry

open DurableMoneyPublishEntry

/-- The content of the journal's key: nothing or an empty text; a text that is not a JSON array of
records with the fields of an entry; or such records. -/
abbrev StoredEntries := Stored (List DurableMoneyPublishEntry)

/-- What the functions of the journal throw: their own texts, or what the store threw. -/
inductive PublishError
  | thrown (message : String)
  | store (fault : StorageError)

/-! ### Reading and writing -/

def readDurableMoneyPublishes (journal : StoredEntries) :
    Except PublishError (List DurableMoneyPublishEntry) :=
  match journal with
  | .missing => .ok []
  | .garbled => .error (.thrown
      "The durable money-publish journal is corrupt; refusing to publish money unsafely.")
  | .value entries =>
    if entries.all validEntry then .ok entries
    else .error (.thrown
      "The durable money-publish journal is invalid; refusing to publish money unsafely.")

/-- What a function makes of the entries it read: an answer alone, or new entries too and what it
finds wrong with them when it reads them again. -/
inductive Change (α : Type)
  | keep (answer : α)
  | write (next : List DurableMoneyPublishEntry)
      (problem : List DurableMoneyPublishEntry → Option String) (answer : α)

variable {α : Type}

/-- `writeAndVerify`: the entries are stored, read again and checked. -/
def writeAndVerify (fault : Option WriteFault) (next : List DurableMoneyPublishEntry)
    (problem : List DurableMoneyPublishEntry → Option String) (journal : StoredEntries) :
    Except PublishError Unit × StoredEntries :=
  match journal.writeItem { write := fault } next with
  | (.error e, stored) => (.error (.store e), stored)
  | (.ok (), stored) =>
    (match readDurableMoneyPublishes stored with
      | .error e => .error e
      | .ok persisted =>
        match problem persisted with
        | some message => .error (.thrown message)
        | none => .ok (), stored)

def update (change : List DurableMoneyPublishEntry → Change α) (fault : Option WriteFault)
    (journal : StoredEntries) : Except PublishError α × StoredEntries :=
  match readDurableMoneyPublishes journal with
  | .error e => (.error e, journal)
  | .ok entries =>
    match change entries with
    | .keep answer => (.ok answer, journal)
    | .write next problem answer =>
      let (written, stored) := writeAndVerify fault next problem journal
      (written.map fun _ => answer, stored)

/-- The check that an event is still there. -/
def expectPresent (id : String) (persisted : List DurableMoneyPublishEntry) : Option String :=
  if id ≠ "" ∧ ¬ persisted.any (hasId id) then some
    "Durable money-publish storage refused the signed event; no relay publish was attempted."
  else none

/-- The check that an event is gone. -/
def expectAbsent (id : String) (persisted : List DurableMoneyPublishEntry) : Option String :=
  if id ≠ "" ∧ persisted.any (hasId id) then some
    "Durable money-publish storage refused to retire an acknowledged event."
  else none

/-! ### The functions -/

def enqueueDurableMoneyPublish (entry : DurableMoneyPublishEntry) :
    Option WriteFault → StoredEntries →
      Except PublishError DurableMoneyPublishEntry × StoredEntries :=
  update fun entries =>
    match entries.find? (hasId entry.event.id) with
    | some existing => .keep existing
    | none =>
      let next := { entry with status := .pending }
      .write (entries ++ [next]) (expectPresent entry.event.id) next

def acknowledgeDurableMoneyPublish (eventId : String) : Option WriteFault → StoredEntries →
    Except PublishError (Option DurableMoneyPublishEntry) × StoredEntries :=
  update fun entries =>
    match entries.find? (hasId eventId) with
    | none => .keep none
    | some acknowledged =>
      if acknowledged.status ≠ .pending then .keep none
      else .write (entries.filter fun e => !hasId eventId e) (expectAbsent eventId)
        (some acknowledged)

def resolveDurableMoneyPublishesForEscrow (escrowId : String) (type : MoneyEventType) :
    Option WriteFault → StoredEntries →
      Except PublishError (List DurableMoneyPublishEntry) × StoredEntries :=
  update fun entries =>
    let resolved := entries.filter (isFor escrowId type)
    if resolved.isEmpty then .keep []
    else .write (entries.filter fun e => !isFor escrowId type e)
      (fun persisted => if persisted.any (isFor escrowId type) then
        some "Durable money-publish storage refused to retire a resolved custody entry." else none)
      resolved

def withFailure (message : String) (e : DurableMoneyPublishEntry) : DurableMoneyPublishEntry :=
  let clean := trim message
  if clean = "" then e
  else { e with
    lastError := some clean
    rejectionMessages := some (e.rejectionMessages.getD [] ++ [clean]).eraseDups }

def changeFirst (eventId : String)
    (change : DurableMoneyPublishEntry → DurableMoneyPublishEntry) :
    List DurableMoneyPublishEntry → List DurableMoneyPublishEntry
  | [] => []
  | e :: rest =>
    if hasId eventId e then change e :: rest else e :: changeFirst eventId change rest

def recordDurableMoneyPublishFailure (eventId message : String) :
    Option WriteFault → StoredEntries →
      Except PublishError (Option DurableMoneyPublishEntry) × StoredEntries :=
  update fun entries =>
    match entries.find? (hasId eventId) with
    | none => .keep none
    | some entry =>
      .write (changeFirst eventId (withFailure message) entries) (expectPresent eventId)
        (some (withFailure message entry))

/-- Whether an entry has to be quarantined: it is pending at or after its refund horizon. -/
def hasExpired (nowSec : JsNumber) (e : DurableMoneyPublishEntry) : Bool :=
  e.status = .pending && e.liveUntil ≤ nowSec

def quarantined (nowSec : JsNumber) (e : DurableMoneyPublishEntry) : DurableMoneyPublishEntry :=
  if hasExpired nowSec e then { e with
    status := .expiredUnacked
    lastError := some "The bearer notes reached their refund horizon before any relay acknowledged this event." }
  else e

def quarantineExpiredMoneyPublishes (nowSec : JsNumber) : Option WriteFault → StoredEntries →
    Except PublishError (List DurableMoneyPublishEntry) × StoredEntries :=
  update fun entries =>
    let newlyQuarantined := (entries.filter (hasExpired nowSec)).map (quarantined nowSec)
    if newlyQuarantined.isEmpty then .keep []
    else .write (entries.map (quarantined nowSec)) (fun _ => none) newlyQuarantined

def isPublishable (nowSec : JsNumber) (e : DurableMoneyPublishEntry) : Bool :=
  e.status = .pending && nowSec < e.liveUntil

def publishableMoneyEntries (nowSec : JsNumber) (fault : Option WriteFault)
    (journal : StoredEntries) :
    Except PublishError (List DurableMoneyPublishEntry) × StoredEntries :=
  match quarantineExpiredMoneyPublishes nowSec fault journal with
  | (.error e, stored) => (.error e, stored)
  | (.ok _, stored) =>
    ((readDurableMoneyPublishes stored).map fun entries => entries.filter (isPublishable nowSec),
      stored)

/-! ### Calls -/

/-- A call of the journal, with the reading of the clock where it takes one. -/
inductive MoneyCall
  | enqueue (entry : DurableMoneyPublishEntry)
  | acknowledge (eventId : String)
  | resolve (escrowId : String) (type : MoneyEventType)
  | recordFailure (eventId message : String)
  | quarantine (nowSec : JsNumber)
  | publishable (nowSec : JsNumber)

def perform (call : MoneyCall) (fault : Option WriteFault) (journal : StoredEntries) :
    Except PublishError (List DurableMoneyPublishEntry) × StoredEntries :=
  match call with
  | .enqueue entry =>
    let (answer, stored) := enqueueDurableMoneyPublish entry fault journal
    (answer.map fun e => [e], stored)
  | .acknowledge eventId =>
    let (answer, stored) := acknowledgeDurableMoneyPublish eventId fault journal
    (answer.map Option.toList, stored)
  | .resolve escrowId type => resolveDurableMoneyPublishesForEscrow escrowId type fault journal
  | .recordFailure eventId message =>
    let (answer, stored) := recordDurableMoneyPublishFailure eventId message fault journal
    (answer.map Option.toList, stored)
  | .quarantine nowSec => quarantineExpiredMoneyPublishes nowSec fault journal
  | .publishable nowSec => publishableMoneyEntries nowSec fault journal

/-- One access to the journal: a call, and how its write fails, if it does. -/
structure Access where
  call : MoneyCall
  fault : Option WriteFault := none

def journalStep (journal : StoredEntries) (a : Access) : Except PublishError StoredEntries :=
  .ok (perform a.call a.fault journal).2

def recordsOf : StoredEntries → List DurableMoneyPublishEntry
  | .missing => []
  | .garbled => []
  | .value entries => entries

def IsCorrupt : StoredEntries → Prop
  | .missing => False
  | .garbled => True
  | .value entries => ∃ e ∈ entries, ¬ e.validEntry

/-- What stays of an entry: all but the notes of failed attempts, and an expiry is for good. -/
structure Continues (e e' : DurableMoneyPublishEntry) : Prop where
  event : e'.event = e.event
  escrowId : e'.escrowId = e.escrowId
  type : e'.type = e.type
  spentAt : e'.spentAt = e.spentAt
  liveUntil : e'.liveUntil = e.liveUntil
  expired : e.status = .expiredUnacked → e'.status = .expiredUnacked

def MoneyCall.Resolves (e : DurableMoneyPublishEntry) (call : MoneyCall) : Prop :=
  call = .resolve e.escrowId e.type

/-- Whether a call takes an entry out of its journal: an acknowledgement of its event while that is
pending, or a resolution. -/
def MoneyCall.Retires (journal : StoredEntries) (e : DurableMoneyPublishEntry)
    (call : MoneyCall) : Prop :=
  (call = .acknowledge e.event.id ∧
    ∃ first, (recordsOf journal).find? (hasId e.event.id) = some first ∧
      first.status = .pending) ∨ call.Resolves e

/-! ### What stays of an entry -/

theorem Continues.refl (e : DurableMoneyPublishEntry) : Continues e e :=
  ⟨rfl, rfl, rfl, rfl, rfl, id⟩

theorem Continues.trans {e e' e'' : DurableMoneyPublishEntry} (h : Continues e e')
    (h' : Continues e' e'') : Continues e e'' where
  event := h'.event.trans h.event
  escrowId := h'.escrowId.trans h.escrowId
  type := h'.type.trans h.type
  spentAt := h'.spentAt.trans h.spentAt
  liveUntil := h'.liveUntil.trans h.liveUntil
  expired := fun hexpired => h'.expired (h.expired hexpired)

theorem continues_withFailure (message : String) (e : DurableMoneyPublishEntry) :
    Continues e (withFailure message e) := by
  unfold withFailure
  dsimp only
  split_ifs
  · exact .refl e
  · exact ⟨rfl, rfl, rfl, rfl, rfl, id⟩

theorem continues_quarantined (nowSec : JsNumber) (e : DurableMoneyPublishEntry) :
    Continues e (quarantined nowSec e) := by
  unfold quarantined
  split_ifs
  · exact ⟨rfl, rfl, rfl, rfl, rfl, fun _ => rfl⟩
  · exact .refl e

variable {e : DurableMoneyPublishEntry}

variable {change : DurableMoneyPublishEntry → DurableMoneyPublishEntry}
  {entries : List DurableMoneyPublishEntry}

theorem exists_continues_changeFirst (hchange : ∀ e, Continues e (change e)) (eventId : String)
    (he : e ∈ entries) : ∃ e' ∈ changeFirst eventId change entries, Continues e e' := by
  induction entries with
  | nil => cases he
  | cons a rest ih =>
    unfold changeFirst
    split_ifs with ha
    · rcases List.mem_cons.mp he with rfl | hrest
      · exact ⟨change e, List.mem_cons_self, hchange e⟩
      · exact ⟨e, List.mem_cons_of_mem _ hrest, .refl e⟩
    · rcases List.mem_cons.mp he with rfl | hrest
      · exact ⟨e, List.mem_cons_self, .refl e⟩
      · obtain ⟨e', hmem, hcontinues⟩ := ih hrest
        exact ⟨e', List.mem_cons_of_mem _ hmem, hcontinues⟩

theorem map_id_changeFirst (hchange : ∀ e, Continues e (change e)) (eventId : String)
    (entries : List DurableMoneyPublishEntry) :
    (changeFirst eventId change entries).map (fun e => e.event.id) =
      entries.map fun e => e.event.id := by
  induction entries with
  | nil => rfl
  | cons a rest ih =>
    unfold changeFirst
    split_ifs with ha
    · simp only [List.map_cons, (hchange a).event]
    · simp only [List.map_cons, ih]

/-! ### One function -/

variable {journal : StoredEntries}

theorem IsCorrupt.read (h : IsCorrupt journal) :
    ∃ error, readDurableMoneyPublishes journal = .error error := by
  cases journal with
  | missing => exact h.elim
  | garbled => exact ⟨_, rfl⟩
  | value entries =>
    obtain ⟨e, he, hinvalid⟩ := h
    have hall : ¬ entries.all validEntry := fun hall => hinvalid (List.all_eq_true.mp hall e he)
    exact ⟨_, if_neg hall⟩

theorem recordsOf_of_read
    (h : readDurableMoneyPublishes journal = .ok entries) : recordsOf journal = entries := by
  cases journal with
  | missing => exact Except.ok.inj h
  | garbled => cases h
  | value stored =>
    unfold readDurableMoneyPublishes at h
    dsimp only at h
    split_ifs at h
    exact Except.ok.inj h

theorem IsCorrupt.update (h : IsCorrupt journal)
    (change : List DurableMoneyPublishEntry → Change α) (fault : Option WriteFault) :
    ∃ error, update change fault journal = (.error error, journal) := by
  obtain ⟨error, herror⟩ := h.read
  refine ⟨error, ?_⟩
  unfold MoneyPublish.update
  rw [herror]

theorem writeAndVerify_stored (fault : Option WriteFault) (next : List DurableMoneyPublishEntry)
    (problem : List DurableMoneyPublishEntry → Option String) (journal : StoredEntries) :
    (writeAndVerify fault next problem journal).2 = journal ∨
      (writeAndVerify fault next problem journal).2 = .value next := by
  have hstored : (writeAndVerify fault next problem journal).2
      = (journal.writeItem { write := fault } next).2 := by
    unfold writeAndVerify
    split <;> simp_all
  rw [hstored]
  rcases writeItem_cases { write := fault } journal next with hvalue | ⟨-, hsame⟩
  · exact Or.inr hvalue
  · exact Or.inl hsame

/-- After a call the journal is what it was, or holds the entries that the call made of those it
read. -/
theorem update_stored (change : List DurableMoneyPublishEntry → Change α)
    (fault : Option WriteFault) (journal : StoredEntries) :
    (update change fault journal).2 = journal ∨
      ∃ next problem answer, change (recordsOf journal) = .write next problem answer ∧
        (update change fault journal).2 = .value next := by
  unfold update
  cases hread : readDurableMoneyPublishes journal with
  | error e => exact Or.inl rfl
  | ok entries =>
    obtain rfl := recordsOf_of_read hread
    dsimp only
    cases hchange : change (recordsOf journal) with
    | keep answer => exact Or.inl rfl
    | write next problem answer =>
      rcases writeAndVerify_stored fault next problem journal with hsame | hvalue
      · exact Or.inl hsame
      · exact Or.inr ⟨next, problem, answer, rfl, hvalue⟩

variable {fault : Option WriteFault}

theorem kept_of_update {change : List DurableMoneyPublishEntry → Change α}
    (he : e ∈ recordsOf journal)
    (hkeeps : ∀ next problem answer, change (recordsOf journal) = .write next problem answer →
      ∃ e' ∈ next, Continues e e') :
    ∃ e' ∈ recordsOf (update change fault journal).2, Continues e e' := by
  rcases update_stored change fault journal with hsame | ⟨next, problem, answer, hchange, hvalue⟩
  · rw [hsame]
    exact ⟨e, he, .refl e⟩
  · rw [hvalue]
    exact hkeeps next problem answer hchange

theorem stored_of_written {next : List DurableMoneyPublishEntry}
    {problem : List DurableMoneyPublishEntry → Option String} {u : Unit}
    (h : (writeAndVerify fault next problem journal).1 = .ok u) :
    (writeAndVerify fault next problem journal).2 = .value next := by
  unfold writeAndVerify at h ⊢
  cases hwrite : journal.writeItem { write := fault } next with
  | mk result stored =>
    rw [hwrite] at h
    cases result with
    | error e => cases h
    | ok _ =>
      have hvalue := writeItem_of_ok (congrArg Prod.fst hwrite)
      rw [hwrite] at hvalue
      exact hvalue

theorem publishable_stored (nowSec : JsNumber) (fault : Option WriteFault)
    (journal : StoredEntries) :
    (publishableMoneyEntries nowSec fault journal).2 =
      (quarantineExpiredMoneyPublishes nowSec fault journal).2 := by
  unfold publishableMoneyEntries
  split <;> simp_all

/-! ### One call -/

variable {nowSec : JsNumber}

theorem kept_of_quarantine (he : e ∈ recordsOf journal) :
    ∃ e' ∈ recordsOf (quarantineExpiredMoneyPublishes nowSec fault journal).2, Continues e e' := by
  refine kept_of_update he fun next problem answer hchange => ?_
  dsimp only at hchange
  split_ifs at hchange
  cases hchange
  exact ⟨quarantined nowSec e, List.mem_map_of_mem he, continues_quarantined nowSec e⟩

variable {call : MoneyCall}

theorem kept_of_perform (he : e ∈ recordsOf journal) (hkeep : ¬ call.Retires journal e) :
    ∃ e' ∈ recordsOf (perform call fault journal).2, Continues e e' := by
  cases call with
  | enqueue entry =>
    show ∃ e' ∈ recordsOf (enqueueDurableMoneyPublish entry fault journal).2, Continues e e'
    refine kept_of_update he fun next problem answer hchange => ?_
    split at hchange
    · cases hchange
    · cases hchange
      exact ⟨e, List.mem_append_left _ he, .refl e⟩
  | acknowledge eventId =>
    show ∃ e' ∈ recordsOf (acknowledgeDurableMoneyPublish eventId fault journal).2, Continues e e'
    refine kept_of_update he fun next problem answer hchange => ?_
    cases hfirst : (recordsOf journal).find? (hasId eventId) with
    | none =>
      rw [hfirst] at hchange
      cases hchange
    | some first =>
      rw [hfirst] at hchange
      dsimp only at hchange
      split_ifs at hchange with hpending
      cases hchange
      -- the event acknowledged is another one
      have hother : eventId ≠ e.event.id := by
        rintro rfl
        exact hkeep (Or.inl ⟨rfl, first, hfirst, not_not.mp hpending⟩)
      refine ⟨e, List.mem_filter.mpr ⟨he, ?_⟩, .refl e⟩
      simp [hasId, Ne.symm hother]
  | resolve escrowId type =>
    refine kept_of_update he fun next problem answer hchange => ?_
    dsimp only at hchange
    split_ifs at hchange
    cases hchange
    refine ⟨e, List.mem_filter.mpr ⟨he, ?_⟩, .refl e⟩
    have hother : ¬ (e.escrowId = escrowId ∧ e.type = type) := by
      rintro ⟨rfl, rfl⟩
      exact hkeep (Or.inr rfl)
    simp only [isFor, Bool.not_eq_true', Bool.and_eq_false_iff, decide_eq_false_iff_not]
    exact not_and_or.mp hother
  | recordFailure eventId message =>
    show ∃ e' ∈ recordsOf (recordDurableMoneyPublishFailure eventId message fault journal).2,
      Continues e e'
    refine kept_of_update he fun next problem answer hchange => ?_
    split at hchange
    · cases hchange
    · cases hchange
      exact exists_continues_changeFirst (continues_withFailure message) eventId he
  | quarantine nowSec => exact kept_of_quarantine he
  | publishable nowSec =>
    show ∃ e' ∈ recordsOf (publishableMoneyEntries nowSec fault journal).2, Continues e e'
    rw [publishable_stored]
    exact kept_of_quarantine he

/-! ### The answers -/

theorem mem_of_enqueue {entry answer : DurableMoneyPublishEntry} {journal stored : StoredEntries}
    (h : enqueueDurableMoneyPublish entry fault journal = (.ok answer, stored)) :
    answer.event.id = entry.event.id ∧ answer ∈ recordsOf stored := by
  unfold enqueueDurableMoneyPublish update at h
  cases hread : readDurableMoneyPublishes journal with
  | error e =>
    rw [hread] at h
    cases (Prod.mk.inj h).1
  | ok entries =>
    rw [hread] at h
    dsimp only at h
    cases hfind : entries.find? (hasId entry.event.id) with
    | some existing =>
      rw [hfind] at h
      obtain ⟨hanswer, hstored⟩ := Prod.mk.inj h
      obtain rfl := Except.ok.inj hanswer
      rw [← hstored, recordsOf_of_read hread]
      exact ⟨of_decide_eq_true (List.find?_some hfind :), List.mem_of_find?_eq_some hfind⟩
    | none =>
      rw [hfind] at h
      obtain ⟨hanswer, hstored⟩ := Prod.mk.inj h
      obtain ⟨u, hwritten, rfl⟩ := map_eq_ok.mp hanswer
      rw [← hstored, stored_of_written hwritten]
      exact ⟨rfl, List.mem_append_right _ List.mem_cons_self⟩

theorem isPublishable_of_offered
    {journal stored : StoredEntries} {offered : List DurableMoneyPublishEntry}
    (h : publishableMoneyEntries nowSec fault journal = (.ok offered, stored)) (he : e ∈ offered) :
    e ∈ recordsOf stored ∧ isPublishable nowSec e = true := by
  unfold publishableMoneyEntries at h
  split at h
  · cases (Prod.mk.inj h).1
  · obtain ⟨hanswer, rfl⟩ := Prod.mk.inj h
    obtain ⟨entries, hread, rfl⟩ := map_eq_ok.mp hanswer
    obtain ⟨hmem, hpublishable⟩ := List.mem_filter.mp he
    exact ⟨recordsOf_of_read hread ▸ hmem, hpublishable⟩

theorem IsCorrupt.perform (h : IsCorrupt journal) (call : MoneyCall) (fault : Option WriteFault) :
    ∃ error, MoneyPublish.perform call fault journal = (.error error, journal) := by
  cases call with
  | enqueue entry =>
    obtain ⟨error, hupdate⟩ : ∃ error,
        enqueueDurableMoneyPublish entry fault journal = (.error error, journal) :=
      h.update _ fault
    refine ⟨error, ?_⟩
    unfold MoneyPublish.perform
    dsimp only
    rw [hupdate]
    rfl
  | acknowledge eventId =>
    obtain ⟨error, hupdate⟩ : ∃ error,
        acknowledgeDurableMoneyPublish eventId fault journal = (.error error, journal) :=
      h.update _ fault
    refine ⟨error, ?_⟩
    unfold MoneyPublish.perform
    dsimp only
    rw [hupdate]
    rfl
  | resolve escrowId type => exact h.update _ fault
  | recordFailure eventId message =>
    obtain ⟨error, hupdate⟩ : ∃ error,
        recordDurableMoneyPublishFailure eventId message fault journal = (.error error, journal) :=
      h.update _ fault
    refine ⟨error, ?_⟩
    unfold MoneyPublish.perform
    dsimp only
    rw [hupdate]
    rfl
  | quarantine nowSec => exact h.update _ fault
  | publishable nowSec =>
    obtain ⟨error, hupdate⟩ : ∃ error,
        quarantineExpiredMoneyPublishes nowSec fault journal = (.error error, journal) :=
      h.update _ fault
    refine ⟨error, ?_⟩
    unfold MoneyPublish.perform publishableMoneyEntries
    dsimp only
    rw [hupdate]

/-! ### Runs -/

theorem retires_iff_of_continues {e e' : DurableMoneyPublishEntry} (h : Continues e e')
    (journal : StoredEntries) (call : MoneyCall) :
    call.Retires journal e' ↔ call.Retires journal e := by
  unfold MoneyCall.Retires MoneyCall.Resolves
  rw [h.event, h.escrowId, h.type]

theorem kept_of_run {start journal : StoredEntries} (he : e ∈ recordsOf start)
    (hrun : Run journalStep (· = start) (fun s a => ¬ a.call.Retires s e) journal) :
    ∃ e' ∈ recordsOf journal, Continues e e' := by
  refine hrun.invariant (I := fun s => ∃ e' ∈ recordsOf s, Continues e e') ?_ ?_
  · rintro s rfl
    exact ⟨e, he, .refl e⟩
  · rintro s a s' hkeep ⟨e', hmem, hcontinues⟩ hstep
    obtain rfl := Except.ok.inj hstep
    have hkeep' : ¬ a.call.Retires s e' := by rwa [retires_iff_of_continues hcontinues]
    obtain ⟨e'', hmem', hcontinues'⟩ := kept_of_perform hmem hkeep'
    exact ⟨e'', hmem', hcontinues.trans hcontinues'⟩

def DistinctIds (journal : StoredEntries) : Prop :=
  ((recordsOf journal).map fun e => e.event.id).Nodup

theorem distinctIds_of_update {change : List DurableMoneyPublishEntry → Change α}
    (h : DistinctIds journal)
    (hchange : ∀ next problem answer, change (recordsOf journal) = .write next problem answer →
      (next.map fun e => e.event.id).Nodup) : DistinctIds (update change fault journal).2 := by
  rcases update_stored change fault journal with hsame | ⟨next, problem, answer, hwrite, hvalue⟩
  · rw [hsame]
    exact h
  · rw [hvalue]
    exact hchange next problem answer hwrite

theorem distinctIds_of_quarantine (h : DistinctIds journal) :
    DistinctIds (quarantineExpiredMoneyPublishes nowSec fault journal).2 := by
  refine distinctIds_of_update h fun next problem answer hchange => ?_
  dsimp only at hchange
  split_ifs at hchange
  cases hchange
  have hids : ((fun e : DurableMoneyPublishEntry => e.event.id) ∘ quarantined nowSec) =
      fun e => e.event.id := by
    funext e
    exact congrArg SignedEvent.id (continues_quarantined nowSec e).event
  rw [List.map_map, hids]
  exact h

theorem distinctIds_of_perform (h : DistinctIds journal) :
    DistinctIds (perform call fault journal).2 := by
  cases call with
  | enqueue entry =>
    show DistinctIds (enqueueDurableMoneyPublish entry fault journal).2
    refine distinctIds_of_update h fun next problem answer hchange => ?_
    cases hfind : (recordsOf journal).find? (hasId entry.event.id) with
    | some existing =>
      rw [hfind] at hchange
      cases hchange
    | none =>
      rw [hfind] at hchange
      cases hchange
      rw [List.map_append, List.map_cons, List.map_nil]
      refine List.nodup_append.mpr ⟨h, List.nodup_singleton _, ?_⟩
      rintro id hid _ (hnew : _ ∈ [entry.event.id]) rfl
      obtain ⟨e, he, rfl⟩ := List.mem_map.mp hid
      exact List.find?_eq_none.mp hfind e he (decide_eq_true (List.mem_singleton.mp hnew))
  | acknowledge eventId =>
    show DistinctIds (acknowledgeDurableMoneyPublish eventId fault journal).2
    refine distinctIds_of_update h fun next problem answer hchange => ?_
    split at hchange
    · cases hchange
    · split_ifs at hchange
      cases hchange
      exact List.Nodup.sublist (List.filter_sublist.map _) h
  | resolve escrowId type =>
    refine distinctIds_of_update h fun next problem answer hchange => ?_
    dsimp only at hchange
    split_ifs at hchange
    cases hchange
    exact List.Nodup.sublist (List.filter_sublist.map _) h
  | recordFailure eventId message =>
    show DistinctIds (recordDurableMoneyPublishFailure eventId message fault journal).2
    refine distinctIds_of_update h fun next problem answer hchange => ?_
    split at hchange
    · cases hchange
    · cases hchange
      rw [map_id_changeFirst (continues_withFailure message)]
      exact h
  | quarantine nowSec => exact distinctIds_of_quarantine h
  | publishable nowSec =>
    show DistinctIds (publishableMoneyEntries nowSec fault journal).2
    rw [publishable_stored]
    exact distinctIds_of_quarantine h

theorem distinctIds_of_reachable
    (h : Reachable journalStep (· = .missing) journal) : DistinctIds journal := by
  refine h.invariant ?_ ?_
  · rintro s rfl
    exact List.nodup_nil
  · intro s a s' hs hstep
    obtain rfl := Except.ok.inj hstep
    exact distinctIds_of_perform hs

theorem resolves_of_retires (hdistinct : DistinctIds journal) (he : e ∈ recordsOf journal)
    (hexpired : e.status = .expiredUnacked) (h : call.Retires journal e) : call.Resolves e := by
  rcases h with ⟨-, first, hfirst, hpending⟩ | hresolves
  · have hid : first.event.id = e.event.id := of_decide_eq_true (List.find?_some hfirst :)
    have hsame : first = e :=
      List.inj_on_of_nodup_map hdistinct (List.mem_of_find?_eq_some hfirst) he hid
    rw [hsame, hexpired] at hpending
    cases hpending
  · exact hresolves

theorem expired_of_run {start journal : StoredEntries}
    (hstart : Reachable journalStep (· = .missing) start)
    (he : e ∈ recordsOf start) (hexpired : e.status = .expiredUnacked)
    (hrun : Run journalStep (· = start) (fun _ a => ¬ a.call.Resolves e) journal) :
    ∃ e' ∈ recordsOf journal, Continues e e' := by
  have hreachable : ∀ s, Run journalStep (· = start) (fun _ a => ¬ a.call.Resolves e) s →
      Reachable journalStep (· = .missing) s := by
    intro s hs
    induction hs with
    | start hs =>
      obtain rfl := hs
      exact hstart
    | next _ _ hstep ih => exact ih.next hstep
  refine hrun.strengthen (I := fun s => ∃ e' ∈ recordsOf s, Continues e e') hreachable ?_ ?_
  · rintro s rfl
    exact ⟨e, he, .refl e⟩
  · rintro s a s' hkeep hreached ⟨e', hmem, hcontinues⟩ hstep
    obtain rfl := Except.ok.inj hstep
    have hkeep' : ¬ a.call.Retires s e' := by
      intro hretires
      have hresolves := resolves_of_retires (distinctIds_of_reachable hreached) hmem
        (hcontinues.expired hexpired) hretires
      unfold MoneyCall.Resolves at hresolves hkeep
      rw [hcontinues.escrowId, hcontinues.type] at hresolves
      exact hkeep hresolves
    obtain ⟨e'', hmem', hcontinues'⟩ := kept_of_perform hmem hkeep'
    exact ⟨e'', hmem', hcontinues.trans hcontinues'⟩

/-- The promises of the journal.  An event that was enqueued is in the journal, and stays there until
an acknowledgement of it while it is pending, or a resolution of its custody; once expired it stays
so until the resolution, whatever clocks later calls read; what is offered for publication is
pending and before its refund horizon; and a corrupt journal refuses every call and is left as it
is. -/
theorem money_journal_law :
    (∀ entry answer fault journal stored,
      enqueueDurableMoneyPublish entry fault journal = (.ok answer, stored) →
        answer.event.id = entry.event.id ∧ answer ∈ recordsOf stored) ∧
    (∀ start, ∀ e ∈ recordsOf start, ∀ journal,
      Run journalStep (· = start) (fun s a => ¬ a.call.Retires s e) journal →
        ∃ e' ∈ recordsOf journal, Continues e e') ∧
    (∀ start, Reachable journalStep (· = .missing) start →
      ∀ e ∈ recordsOf start, e.status = .expiredUnacked → ∀ journal,
        Run journalStep (· = start) (fun _ a => ¬ a.call.Resolves e) journal →
          ∃ e' ∈ recordsOf journal, Continues e e') ∧
    (∀ nowSec fault journal offered stored,
      publishableMoneyEntries nowSec fault journal = (.ok offered, stored) →
        ∀ e ∈ offered, e ∈ recordsOf stored ∧ e.status = .pending ∧ nowSec < e.liveUntil) ∧
    (∀ journal, IsCorrupt journal → ∀ call fault,
      ∃ error, perform call fault journal = (.error error, journal)) := by
  refine ⟨?_, ?_, ?_, ?_, ?_⟩
  · intro entry answer fault journal stored h
    exact mem_of_enqueue h
  · intro start e he journal hrun
    exact kept_of_run he hrun
  · intro start hstart e he hexpired journal hrun
    exact expired_of_run hstart he hexpired hrun
  · intro nowSec fault journal offered stored h e he
    obtain ⟨hmem, hpublishable⟩ := isPublishable_of_offered h he
    obtain ⟨hpending, hbefore⟩ := (Bool.and_eq_true _ _).mp hpublishable
    exact ⟨hmem, of_decide_eq_true hpending, of_decide_eq_true hbefore⟩
  · intro journal h call fault
    exact h.perform call fault

def sampleLock : DurableMoneyPublishEntry where
  event := ⟨"e", "p", 100, 38102, [], "", "s"⟩
  escrowId := "trade"
  type := .lock
  spentAt := 100
  liveUntil := 200

/-- At its horizon the lock is not offered, nor when the clock goes back behind it. -/
example :
    let enqueued := (perform (.enqueue sampleLock) none .missing).2
    let expired := (perform (.publishable 200) none enqueued).2
    [(perform (.publishable 150) none enqueued).1, (perform (.publishable 200) none enqueued).1,
      (perform (.publishable 150) none expired).1].map (fun r => r.toOption.map List.length) =
      [some 1, some 0, some 0] := by
  decide +kernel

end ChamaEscrow.MoneyPublish
