import ChamaEscrow.Js.Value
import ChamaEscrow.Library.OrderedMap
import ChamaEscrow.Library.Program

/-!
# The kept identity key

How a browser keeps the key of an identity (`storage/saved-nsec.ts`): a save writes it plainly and
queues the job that moves it into the sealed store, a read signs in with the plain copy or opens the
sealed one, a sign-out removes the plain copy at once and queues the removal of the sealed one.  The
tabs of the browser share plain storage, the sealed store and the lock under which the jobs run, one
at a time; each tab runs its own in order.  Code between two `await`s is one step.

A job is a program over the operations of `JobOp`, one for each call of the store and one for each
stretch of code that reads and writes plain storage.  The pages (saves, reads, sign-outs, delays
that end, tabs that close) act between the steps of the job that holds the lock.

* `kept_key_stays`: a kept key is neither lost nor brought back, as long as no queued deletion takes
  its only copy and no read returns what the store no longer holds.
* `kept_key_removed`: a removal that was queued before the key was saved takes it from the store.
-/

namespace ChamaEscrow

open Js Library

namespace SavedKey

/-! ### What is stored -/

inductive KeyOrigin
  | generated
  | imported
  deriving DecidableEq

structure KeyText where
  text : String
  trim_ne : trim text ≠ ""

/-- The names of the sealed store: `SEALED_NSEC_KEY`, the name under which older versions sealed a
copy (`SAVED_NSEC_KEY`), and the archives of a record, named by its random number. -/
inductive SealedName
  | sealedNsec
  | savedNsec
  | archived (of : SealedName) (iv : ℕ)
  deriving DecidableEq

structure SealedRecord where
  text : String
  iv : ℕ

/-- `text?.trim() || null`. -/
def heldText (text : Option String) : Option String := (text.map trim).filter (· ≠ "")

theorem heldText_of_trim_ne {text : String} (h : trim text ≠ "") :
    heldText (some text) = some (trim text) := by
  simp [heldText, h]

variable {nsec : String}

theorem ne_empty_of_heldText {text : Option String} (h : heldText text = some nsec) : nsec ≠ "" :=
  of_decide_eq_true (Option.filter_eq_some_iff.mp h).2

/-! ### Jobs -/

/-- The sealed operations that are queued. -/
inductive Job
  | sealKept (nsec : String)
  | clearSaved (forget : Option String)
  | clearUnwitnessed
  | forget (forget : Option String)
  | read (reading : ℕ)
  | dropLater (nsec : String)
  | watch (nsec : String)
  deriving DecidableEq

/-- The operations of a job: the lock, the sealed store, and the stretches of code that touch plain
storage. -/
inductive JobOp
  | acquire (tab : ℕ) (job : Job)
  | release
  | readPlain
  | get (name : SealedName)
  | set (name : SealedName) (text : String)
  | archive (name : SealedName)
  | delete (name : SealedName)
  | archives (name : SealedName)
  /-- The end of `sealKept`, once the sealed copy reads back. -/
  | settle (nsec : String) (wrote : Bool)
  /-- The end of the delayed check before the plain copy is dropped. -/
  | drop (nsec : String)
  /-- The beginning of the check that `watchSealed` delays, and its end. -/
  | isSealedOnly
  | putBack (nsec : String)
  /-- The answer that a read waits for. -/
  | deliver (reading : ℕ) (outcome : Except Unit (Option String))

/-- The replies.  What throws replies with an error, or with `false` where it returns nothing. -/
abbrev JobOp.Reply : JobOp → Type
  | .readPlain => Option String
  | .get _ => Except Unit (Option String)
  | .set _ _ | .delete _ => Bool
  | .archive _ => Except Unit (Option SealedName)
  | .archives _ => Except Unit (List SealedName)
  | .isSealedOnly => Bool
  | _ => Unit

abbrev jobSignature : Signature := ⟨JobOp, JobOp.Reply⟩

abbrev JobProg (α : Type) := Prog jobSignature α

def call (op : JobOp) : JobProg op.Reply := Prog.invoke (S := jobSignature) op

def archiveAndDelete (name : SealedName) : JobProg Bool := do
  match ← call (.archive name) with
  | .ok _ => call (.delete name)
  | .error _ => pure false

/-- `clearSealed`; it replies whether nothing was thrown. -/
def clearSealed (name : SealedName) (forget : Option String) : JobProg Bool := do
  match ← call (.get name) with
  | .ok none => pure true
  | .ok (some current) =>
    if some (trim current) = forget then call (.delete name) else archiveAndDelete name
  | .error _ => archiveAndDelete name

/-- The check that the sealed copy reads back, and the end of `sealKept`. -/
def confirmSealed (nsec : String) (wrote : Bool) : JobProg Unit := do
  match ← call (.get .sealedNsec) with
  | .ok (some text) => if trim text = nsec then call (.settle nsec wrote) else pure ()
  | _ => pure ()

/-- The write of `sealKept`. -/
def writeSealed (nsec : String) : JobProg Unit := do
  if (← call .readPlain) = some nsec then
    if ← call (.set .sealedNsec nsec) then confirmSealed nsec true else pure ()
  else pure ()

def sealKept (nsec : String) : JobProg Unit := do
  if (← call .readPlain) = some nsec then
    match ← call (.get .sealedNsec) with
    | .error _ => pure ()
    | .ok text =>
      if heldText text = some nsec then confirmSealed nsec false
      else if heldText text = none then writeSealed nsec
      else
        match ← call (.archive .sealedNsec) with
        | .ok (some _) => writeSealed nsec
        | _ => pure ()
  else pure ()

/-- The delayed end of `sealKept` where the sealed copy was already there. -/
def dropLater (nsec : String) : JobProg Unit := do
  if (← call .readPlain) = some nsec then
    match ← call (.get .sealedNsec) with
    | .ok (some text) => if trim text = nsec then call (.drop nsec) else pure ()
    | _ => pure ()
  else pure ()

/-- The check that `watchSealed` delays. -/
def watchSealed (nsec : String) : JobProg Unit := do
  if ← call .isSealedOnly then
    match ← call (.get .sealedNsec) with
    | .ok none => call (.putBack nsec)
    | _ => pure ()
  else pure ()

def clearUnwitnessed : JobProg Unit := do
  if ← clearSealed .sealedNsec none then
    let _ ← clearSealed .savedNsec none
    pure ()
  else pure ()

def deleteArchives (nsec : String) : List SealedName → JobProg Unit
  | [] => pure ()
  | name :: rest => do
    match ← call (.get name) with
    | .ok (some text) =>
      if trim text = nsec then
        if ← call (.delete name) then deleteArchives nsec rest else pure ()
      else deleteArchives nsec rest
    | _ => deleteArchives nsec rest

def forgetArchives (nsec : String) : JobProg Unit := do
  match ← call (.archives .sealedNsec) with
  | .error _ => pure ()
  | .ok names =>
    match ← call (.archives .savedNsec) with
    | .error _ => pure ()
    | .ok older => deleteArchives nsec (names ++ older)

def forgetSealed (forget : Option String) : JobProg Unit := do
  if ← clearSealed .sealedNsec forget then
    if ← clearSealed .savedNsec forget then
      match forget with
      | none => pure ()
      | some nsec => forgetArchives nsec
    else pure ()
  else pure ()

def Job.run : Job → JobProg Unit
  | sealKept nsec => SavedKey.sealKept nsec
  | clearSaved nsec => do
    let _ ← clearSealed .savedNsec nsec
    pure ()
  | clearUnwitnessed => SavedKey.clearUnwitnessed
  | forget nsec => forgetSealed nsec
  | read reading => do
    let outcome ← call (.get .sealedNsec)
    call (.deliver reading outcome)
  | dropLater nsec => SavedKey.dropLater nsec
  | watch nsec => watchSealed nsec

def main : ℕ × Job → JobProg Unit
  | (tab, job) => do
    call (.acquire tab job)
    job.run
    call .release

/-! ### The browser -/

/-- A read that waits for the sealed copy. -/
inductive Reading
  | waiting
  | opened (sealed : Option String)
  | failed

/-- What a read returns, or that the kept key cannot be opened (`SavedKeyUnreadableError`). -/
inductive Answer
  | key (nsec : Option String)
  | unreadable
  deriving DecidableEq

/-- The jobs that a tab has queued and delayed, and its reads under way. -/
structure Tab where
  queue : List Job := []
  settling : List Job := []
  readings : ℕ → Option Reading := fun _ => none

/-- What the tabs of a browser share, with two records that the code does not keep: the key of the
last save unless a sign-out came after it, and what each read returned, beside the key that was kept
as it returned. -/
structure Browser where
  plain : Option String := none
  origin : Option KeyOrigin := none
  records : OrderedMap SealedName SealedRecord := .empty
  tabs : ℕ → Tab := fun _ => {}
  readCounter : ℕ := 0
  running : Option ℕ := none
  kept : Option String := none
  answers : List (Option String × Answer) := []

/-- How a call of the store ends.  One that fails may have had its effect. -/
inductive StoreAnswer
  | answers (iv : ℕ)
  | fails (landed : Bool) (iv : ℕ)

inductive PageEvent
  | saveNsec (tab : ℕ) (nsec : KeyText) (origin : KeyOrigin)
  | readBrowserSavedNsec (tab : ℕ)
  /-- The code of a read after its `await`. -/
  | resume (tab reading : ℕ)
  /-- A read has waited long enough. -/
  | timeOut (tab reading : ℕ)
  | removeBrowserSavedNsec (tab : ℕ) (forget : Option String)
  /-- The settle delay of a check ends. -/
  | settleDelay (tab i : ℕ)
  | close (tab : ℕ)

/-- What is not up to the code. -/
inductive BrowserChoice
  | store (answer : StoreAnswer)
  | page (e : PageEvent)

namespace StoreAnswer

/-- Whether the effect of the call takes place. -/
def lands : StoreAnswer → Bool
  | answers _ => true
  | fails landed _ => landed

def returns : StoreAnswer → Bool
  | answers _ => true
  | fails _ _ => false

/-- The random number of a record that is written. -/
def iv : StoreAnswer → ℕ
  | answers iv | fails _ iv => iv

end StoreAnswer

namespace Browser

variable (w : Browser)

def readPlain : Option String := heldText w.plain

def sealedText : Option String := heldText ((w.records.get .sealedNsec).map SealedRecord.text)

def onTab (tab : ℕ) (f : Tab → Tab) : Browser :=
  { w with tabs := Function.update w.tabs tab (f (w.tabs tab)) }

/-- `queueSealedNsec`. -/
def queueJob (tab : ℕ) (job : Job) : Browser :=
  w.onTab tab fun t => { t with queue := t.queue ++ [job] }

def later (tab : ℕ) (job : Job) : Browser :=
  w.onTab tab fun t => { t with settling := t.settling ++ [job] }

/-- A read returns. -/
def answer (a : Answer) : Browser := { w with answers := (w.kept, a) :: w.answers }

/-- `dropPlain` and the check after it. -/
def dropPlain (tab : ℕ) (nsec : String) : Browser :=
  if w.readPlain = some nsec ∧ w.origin ≠ none then
    { w with plain := none }.later tab (.watch nsec)
  else w

/-- The end of `sealKept`. -/
def settle (tab : ℕ) (nsec : String) (wrote : Bool) : Browser :=
  if w.readPlain = some nsec then
    let w := { w with origin := some (w.origin.getD .imported) }
    if wrote then w.dropPlain tab nsec else w.later tab (.dropLater nsec)
  else w

def saveNsec (tab : ℕ) (nsec : KeyText) (origin : KeyOrigin) : Browser :=
  { w with
    plain := some nsec.text, origin := some origin
    kept := some (trim nsec.text) }.queueJob tab (.sealKept (trim nsec.text))

/-- `readBrowserSavedNsec` up to its `await`. -/
def readBrowserSavedNsec (tab : ℕ) : Browser :=
  match w.readPlain with
  | some plain =>
    ((w.queueJob tab (.clearSaved (some plain))).queueJob tab (.sealKept plain)).answer
      (.key (some plain))
  | none =>
    if w.origin = none then (w.queueJob tab .clearUnwitnessed).answer (.key none)
    else
      { w with readCounter := w.readCounter + 1 }.onTab tab fun t =>
        { t with
          queue := t.queue ++ [Job.read w.readCounter]
          readings := Function.update t.readings w.readCounter (some .waiting) }

/-- `readBrowserSavedNsec` after its `await`, with what the store gave. -/
def resumeOpened (tab : ℕ) (sealed : Option String) : Browser :=
  match w.readPlain with
  | some now => w.answer (.key (some now))
  | none =>
    if w.origin = none then w.answer (.key none)
    else (w.queueJob tab (.clearSaved (heldText sealed))).answer (.key (heldText sealed))

/-- `readBrowserSavedNsec` after its `await`, where the store failed or was late. -/
def resumeFailed : Browser :=
  match w.readPlain with
  | some now => w.answer (.key (some now))
  | none => w.answer .unreadable

def setReading (tab reading : ℕ) (r : Option Reading) : Browser :=
  w.onTab tab fun t => { t with readings := Function.update t.readings reading r }

def removeBrowserSavedNsec (tab : ℕ) (forget : Option String) : Browser :=
  { w with plain := none, origin := none, kept := none }.queueJob tab
    (.forget ((heldText forget).or w.readPlain))

def close (tab : ℕ) : Browser :=
  { w with running := if w.running = some tab then none else w.running }.onTab tab fun _ => {}

def onPage : PageEvent → Option Browser
  | .saveNsec tab nsec origin => some (w.saveNsec tab nsec origin)
  | .readBrowserSavedNsec tab => some (w.readBrowserSavedNsec tab)
  | .resume tab reading =>
    match (w.tabs tab).readings reading with
    | some (.opened sealed) => some ((w.setReading tab reading none).resumeOpened tab sealed)
    | some .failed => some (w.setReading tab reading none).resumeFailed
    | _ => none
  | .timeOut tab reading =>
    match (w.tabs tab).readings reading with
    | some .waiting => some (w.setReading tab reading (some .failed))
    | _ => none
  | .removeBrowserSavedNsec tab forget => some (w.removeBrowserSavedNsec tab forget)
  | .settleDelay tab i =>
    ((w.tabs tab).settling[i]?).map fun job =>
      (w.onTab tab fun t => { t with settling := t.settling.eraseIdx i }).queueJob tab job
  | .close tab => some (w.close tab)

def archived (name : SealedName) (r : SealedRecord) : Browser :=
  { w with records := w.records.set (.archived name r.iv) r }

def performIn (tab : ℕ) (c : StoreAnswer) : (op : JobOp) → Option (op.Reply × Browser)
  | .acquire _ _ => none
  | .release => some ((), { w with running := none })
  | .readPlain => some (w.readPlain, w)
  | .get name =>
    some (if c.returns then .ok ((w.records.get name).map SealedRecord.text) else .error (), w)
  | .set name text =>
    some (c.returns, if c.lands then { w with records := w.records.set name ⟨text, c.iv⟩ } else w)
  | .archive name =>
    match w.records.get name with
    | none => some (if c.returns then .ok none else .error (), w)
    | some r =>
      some (if c.returns then .ok (some (.archived name r.iv)) else .error (),
        if c.lands then w.archived name r else w)
  | .delete name =>
    some (c.returns, if c.lands then { w with records := w.records.erase name } else w)
  | .archives name =>
    some (if c.returns then .ok (w.records.keys.filter fun k =>
        match k with
        | .archived of _ => of = name
        | _ => false) else .error (), w)
  | .settle nsec wrote => some ((), w.settle tab nsec wrote)
  | .drop nsec => some ((), w.dropPlain tab nsec)
  | .isSealedOnly => some (w.readPlain = none ∧ w.origin ≠ none, w)
  | .putBack nsec =>
    some ((), if w.readPlain = none ∧ w.origin ≠ none then { w with plain := some nsec } else w)
  | .deliver reading outcome =>
    some ((), match (w.tabs tab).readings reading with
      | some .waiting => w.setReading tab reading (some (match outcome with
          | .ok sealed => .opened sealed
          | .error _ => .failed))
      | _ => w)

/-- What an operation does.  A job acquires the lock when it is the next one of its tab and no other
holds it, and whatever it does then it does as long as it holds the lock. -/
def perform (op : JobOp) (c : BrowserChoice) : Option (op.Reply × Browser) :=
  match op, c with
  | .acquire tab job, .store _ =>
    if w.running = none ∧ (w.tabs tab).queue.head? = some job then
      some ((), { w with running := some tab }.onTab tab fun t => { t with queue := t.queue.tail })
    else none
  | op, .store answer => w.running.bind fun tab => w.performIn tab answer op
  | _, .page _ => none

end Browser

def browser : Platform where
  toSignature := jobSignature
  World := Browser
  Choice := BrowserChoice
  perform op w c := w.perform op c
  drift w
    | .page e => w.onPage e
    | .store _ => none

/-- No key is kept, whatever a sign-out left in the sealed store, and no tab is open. -/
def Fresh (w : Browser) : Prop := ∃ records, w = { records := records }

/-- What a read returns is the key that is kept, or that it cannot be opened. -/
def Right (kept : Option String) (a : Answer) : Prop :=
  (∀ nsec, kept = some nsec → a = .key (some nsec) ∨ a = .unreadable) ∧
  (kept = none → ∀ nsec, a ≠ .key (some nsec))

/-! ### The invariant -/

variable {a : StoreAnswer} {op : JobOp}

namespace Browser

variable {w w' : Browser}

/-- A plain copy is there, or no key is kept: the sealed record is not the only copy of a kept
key. -/
def NotSealedOnly (w : Browser) : Prop := w.readPlain ≠ none ∨ w.origin = none

/-- A kept key has its witness and a copy, the plain one before the sealed one; without a kept key
plain storage is empty; and every read returned what it should. -/
structure Sound (w : Browser) : Prop where
  witnessed : ∀ nsec, w.kept = some nsec → w.origin ≠ none ∧
    (w.readPlain = some nsec ∨ w.readPlain = none ∧ w.sealedText = some nsec)
  forgotten : w.kept = none → w.readPlain = none ∧ w.origin = none
  right : ∀ x ∈ w.answers, Right x.1 x.2

theorem Sound.eq_of_readPlain (h : w.Sound) (hplain : w.readPlain = some nsec) :
    w.kept = some nsec := by
  cases hkept : w.kept with
  | none =>
    rw [(h.forgotten hkept).1] at hplain
    cases hplain
  | some key =>
    rcases (h.witnessed key hkept).2 with hkey | ⟨hnone, -⟩
    · exact congrArg some (Option.some.inj (hkey.symm.trans hplain))
    · rw [hnone] at hplain
      cases hplain

theorem Sound.eq_of_sealedOnly (h : w.Sound) (hplain : w.readPlain = none)
    (horigin : w.origin ≠ none) : w.kept = w.sealedText ∧ w.kept ≠ none := by
  cases hkept : w.kept with
  | none => exact absurd (h.forgotten hkept).2 horigin
  | some key =>
    rcases (h.witnessed key hkept).2 with hkey | ⟨-, hsealed⟩
    · rw [hplain] at hkey
      cases hkey
    · exact ⟨hsealed.symm, Option.some_ne_none key⟩

theorem Sound.congr (h : w.Sound) (hplain : w'.plain = w.plain) (horigin : w'.origin = w.origin)
    (hsealed : w'.sealedText = w.sealedText) (hkept : w'.kept = w.kept)
    (hanswers : w'.answers = w.answers) : w'.Sound := by
  have hread : w'.readPlain = w.readPlain := congrArg heldText hplain
  refine ⟨fun nsec hnsec => ?_, fun hnone => ?_, hanswers ▸ h.right⟩
  · rw [horigin, hread, hsealed]
    exact h.witnessed nsec (hkept ▸ hnsec)
  · rw [horigin, hread]
    exact h.forgotten (hkept ▸ hnone)

theorem Sound.set_records (h : w.Sound) (hnot : w.NotSealedOnly)
    (records : OrderedMap SealedName SealedRecord) : Sound { w with records := records } := by
  refine ⟨fun nsec hnsec => ?_, h.forgotten, h.right⟩
  obtain ⟨horigin, hcopy⟩ := h.witnessed nsec hnsec
  refine ⟨horigin, Or.inl (hcopy.resolve_right fun hsealed => ?_)⟩
  exact hnot.elim (fun hplain => hplain hsealed.1) horigin

/-- A read returns what it should. -/
theorem Sound.answer (h : w.Sound) {a : Answer} (ha : Right w.kept a) : (w.answer a).Sound :=
  ⟨h.witnessed, h.forgotten, fun x hx => (List.mem_cons.mp hx).elim (fun h => h ▸ ha) (h.right x)⟩

theorem Sound.onTab (h : w.Sound) (tab : ℕ) (f : Tab → Tab) : (w.onTab tab f).Sound :=
  h.congr rfl rfl rfl rfl rfl

/-! ### The pages -/

/-- A read that returns what it got from the store has got what the store still holds. -/
def ReadsCurrent (w : Browser) : PageEvent → Prop
  | .resume tab reading => ∀ sealed, (w.tabs tab).readings reading = some (.opened sealed) →
    w.readPlain = none → w.origin ≠ none → heldText sealed = w.sealedText
  | _ => True

/-- How the pages may change the browser between two steps of a job: its tab closes, or the sealed
store stays and no key comes to be kept sealed only. -/
def Rely (w w' : Browser) : Prop :=
  w'.running = none ∨ (w'.running = w.running ∧ w'.records = w.records ∧
    (w.NotSealedOnly → w'.NotSealedOnly))

theorem rely_refl (w : Browser) : Rely w w := Or.inr ⟨rfl, rfl, id⟩

theorem rely_trans {u v w : Browser} (huv : Rely u v) (hvw : Rely v w) : Rely u w := by
  rcases hvw with hnone | ⟨hrunning, hrecords, hnot⟩
  · exact Or.inl hnone
  · rcases huv with hnone | ⟨hrunning', hrecords', hnot'⟩
    · exact Or.inl (hrunning.trans hnone)
    · exact Or.inr ⟨hrunning.trans hrunning', hrecords.trans hrecords', hnot ∘ hnot'⟩

theorem right_kept (kept : Option String) : Right kept (.key kept) := by
  refine ⟨fun nsec h => Or.inl (congrArg Answer.key h), fun hnone nsec h => ?_⟩
  rw [hnone] at h
  cases h

theorem right_unreadable (kept : Option String) : Right kept .unreadable :=
  ⟨fun _ _ => Or.inr rfl, fun _ _ h => by cases h⟩

theorem Sound.right_plain (h : w.Sound) (hplain : w.readPlain = some nsec) :
    Right w.kept (.key (some nsec)) := by
  rw [h.eq_of_readPlain hplain]
  exact right_kept _

theorem Sound.right_none (h : w.Sound) (horigin : w.origin = none) : Right w.kept (.key none) := by
  cases hkept : w.kept with
  | none => exact right_kept none
  | some nsec => exact absurd horigin (h.witnessed nsec hkept).1

theorem Sound.saveNsec (h : w.Sound) (tab : ℕ) (nsec : KeyText) (origin : KeyOrigin) :
    (w.saveNsec tab nsec origin).Sound ∧ Rely w (w.saveNsec tab nsec origin) := by
  have hplain : (w.saveNsec tab nsec origin).readPlain = some (trim nsec.text) :=
    heldText_of_trim_ne nsec.trim_ne
  refine ⟨⟨fun key hkey => ?_, fun hnone => ?_, h.right⟩, Or.inr ⟨rfl, rfl, fun _ => Or.inl ?_⟩⟩
  · exact ⟨Option.some_ne_none origin, Or.inl (hplain.trans hkey)⟩
  · cases hnone
  · rw [hplain]
    exact Option.some_ne_none _

theorem Sound.removeBrowserSavedNsec (h : w.Sound) (tab : ℕ) (forget : Option String) :
    (w.removeBrowserSavedNsec tab forget).Sound ∧
      Rely w (w.removeBrowserSavedNsec tab forget) := by
  refine ⟨⟨fun key hkey => ?_, fun _ => ⟨rfl, rfl⟩, h.right⟩, Or.inr ⟨rfl, rfl, fun _ => ?_⟩⟩
  · cases hkey
  · exact Or.inr rfl

theorem Sound.readBrowserSavedNsec (h : w.Sound) (tab : ℕ) :
    (w.readBrowserSavedNsec tab).Sound ∧ Rely w (w.readBrowserSavedNsec tab) := by
  unfold Browser.readBrowserSavedNsec
  split
  case h_1 plain hplain =>
    exact ⟨((h.onTab tab _).onTab tab _).answer (h.right_plain hplain), Or.inr ⟨rfl, rfl, id⟩⟩
  case h_2 =>
    split_ifs with horigin
    · exact ⟨(h.onTab tab _).answer (h.right_none horigin), Or.inr ⟨rfl, rfl, id⟩⟩
    · exact ⟨h.congr rfl rfl rfl rfl rfl, Or.inr ⟨rfl, rfl, id⟩⟩

theorem Sound.resumeOpened (h : w.Sound) (tab : ℕ) {sealed : Option String}
    (hcurrent : w.readPlain = none → w.origin ≠ none → heldText sealed = w.sealedText) :
    (w.resumeOpened tab sealed).Sound ∧ Rely w (w.resumeOpened tab sealed) := by
  unfold Browser.resumeOpened
  split
  case h_1 now hplain => exact ⟨h.answer (h.right_plain hplain), Or.inr ⟨rfl, rfl, id⟩⟩
  case h_2 hplain =>
    split_ifs with horigin
    · exact ⟨h.answer (h.right_none horigin), Or.inr ⟨rfl, rfl, id⟩⟩
    · refine ⟨(h.onTab tab _).answer ?_, Or.inr ⟨rfl, rfl, id⟩⟩
      rw [hcurrent hplain horigin, ← (h.eq_of_sealedOnly hplain horigin).1]
      exact right_kept w.kept

theorem Sound.resumeFailed (h : w.Sound) : w.resumeFailed.Sound ∧ Rely w w.resumeFailed := by
  unfold Browser.resumeFailed
  split
  case h_1 now hplain => exact ⟨h.answer (h.right_plain hplain), Or.inr ⟨rfl, rfl, id⟩⟩
  case h_2 => exact ⟨h.answer (right_unreadable w.kept), Or.inr ⟨rfl, rfl, id⟩⟩

theorem Sound.close (h : w.Sound) (tab : ℕ) : (w.close tab).Sound ∧ Rely w (w.close tab) := by
  refine ⟨h.congr rfl rfl rfl rfl rfl, ?_⟩
  change (if w.running = some tab then none else w.running) = none ∨ _
  by_cases hrunning : w.running = some tab
  · exact Or.inl (if_pos hrunning)
  · exact Or.inr ⟨if_neg hrunning, rfl, id⟩

theorem Sound.onPage (h : w.Sound) {e : PageEvent} (hcurrent : w.ReadsCurrent e)
    (he : w.onPage e = some w') : w'.Sound ∧ Rely w w' := by
  cases e with
  | saveNsec tab nsec origin =>
    obtain rfl := Option.some.inj he
    exact h.saveNsec tab nsec origin
  | readBrowserSavedNsec tab =>
    obtain rfl := Option.some.inj he
    exact h.readBrowserSavedNsec tab
  | resume tab reading =>
    unfold Browser.onPage at he
    dsimp only at he
    split at he
    case h_1 sealed hreading =>
      obtain rfl := Option.some.inj he
      exact (h.onTab tab _).resumeOpened tab (hcurrent sealed hreading)
    case h_2 =>
      obtain rfl := Option.some.inj he
      exact (h.onTab tab _).resumeFailed
    case h_3 => cases he
  | timeOut tab reading =>
    unfold Browser.onPage at he
    dsimp only at he
    split at he
    case h_1 =>
      obtain rfl := Option.some.inj he
      exact ⟨h.onTab tab _, Or.inr ⟨rfl, rfl, id⟩⟩
    case h_2 => cases he
  | removeBrowserSavedNsec tab forget =>
    obtain rfl := Option.some.inj he
    exact h.removeBrowserSavedNsec tab forget
  | settleDelay tab i =>
    obtain ⟨job, -, rfl⟩ := Option.map_eq_some_iff.mp he
    exact ⟨(h.onTab tab _).onTab tab _, Or.inr ⟨rfl, rfl, id⟩⟩
  | close tab =>
    obtain rfl := Option.some.inj he
    exact h.close tab

/-! ### The jobs -/

def HoldsKey (w : Browser) (nsec : String) : Prop :=
  ∃ r, w.records.get .sealedNsec = some r ∧ trim r.text = nsec

theorem HoldsKey.sealedText (h : w.HoldsKey nsec) (hne : nsec ≠ "") : w.sealedText = some nsec := by
  obtain ⟨r, hr, rfl⟩ := h
  unfold Browser.sealedText
  rw [hr]
  exact heldText_of_trim_ne hne

theorem Sound.dropPlain (h : w.Sound) (hholds : w.HoldsKey nsec) (tab : ℕ) :
    (w.dropPlain tab nsec).Sound := by
  unfold Browser.dropPlain
  split_ifs with hplain
  · have hkept := h.eq_of_readPlain hplain.1
    have hsealed := hholds.sealedText (ne_empty_of_heldText hplain.1)
    have hdropped : Sound { w with plain := none } := by
      refine ⟨fun key hkey => ⟨hplain.2, Or.inr ⟨rfl, ?_⟩⟩, fun hnone => ?_, h.right⟩
      · exact hsealed.trans (hkept.symm.trans hkey)
      · exact absurd hnone (hkept ▸ Option.some_ne_none nsec)
    exact hdropped.onTab tab _
  · exact h

theorem Sound.settle (h : w.Sound) (hholds : w.HoldsKey nsec) (tab : ℕ)
    (wrote : Bool) : (w.settle tab nsec wrote).Sound := by
  unfold Browser.settle
  by_cases hplain : w.readPlain = some nsec
  · -- A key that is kept plainly has its witness already.
    obtain ⟨horigin, -⟩ := h.witnessed nsec (h.eq_of_readPlain hplain)
    have hsame : some (w.origin.getD .imported) = w.origin := by
      cases ho : w.origin with
      | none => exact absurd ho horigin
      | some origin => rfl
    rw [if_pos hplain, hsame]
    dsimp only
    cases wrote with
    | true => exact h.dropPlain hholds tab
    | false => exact h.onTab tab fun t => { t with settling := t.settling ++ [.dropLater nsec] }
  · rw [if_neg hplain]
    exact h

theorem Sound.onRecords (h : w.Sound) {records : OrderedMap SealedName SealedRecord}
    (hsame : records.get .sealedNsec = w.records.get .sealedNsec) :
    Sound { w with records := records } :=
  h.congr rfl rfl (congrArg (heldText ∘ Option.map SealedRecord.text) hsame) rfl rfl

/-- The operations that leave a kept key where it is, whatever happens around them; a deletion does
where it does not remove the only copy. -/
def Harmless : JobOp → Prop
  | .set _ _ | .settle _ _ | .drop _ | .putBack _ => False
  | _ => True

/-- A deletion under `SEALED_NSEC_KEY` that takes effect does not remove the only copy of a kept
key. -/
def DeletesSafely (op : JobOp) (w : Browser) (c : BrowserChoice) : Prop :=
  ∀ a, op = .delete .sealedNsec → c = .store a → a.lands = true → w.NotSealedOnly

theorem Sound.delete (h : w.Sound) {name : SealedName}
    (hsafe : DeletesSafely (.delete name) w (.store a)) :
    Sound (if a.lands then { w with records := w.records.erase name } else w) := by
  split_ifs with hlands
  · by_cases hname : name = .sealedNsec
    · subst hname
      exact h.set_records (hsafe a rfl rfl hlands) _
    · refine h.onRecords ?_
      rw [OrderedMap.get_erase, if_neg fun heq => hname heq.symm]
  · exact h

theorem Sound.archive (h : w.Sound) (name : SealedName) (r : SealedRecord) :
    (w.archived name r).Sound := by
  refine h.onRecords ?_
  rw [OrderedMap.get_set, if_neg fun heq => by cases heq]

theorem Sound.harmless (h : w.Sound) (hop : Harmless op) {tab : ℕ}
    (hsafe : DeletesSafely op w (.store a)) {r : op.Reply}
    (hperform : w.performIn tab a op = some (r, w')) : w'.Sound := by
  cases op with
  | acquire tab job => cases hperform
  | release =>
    obtain ⟨-, rfl⟩ := Prod.mk.inj (Option.some.inj hperform)
    exact h.congr rfl rfl rfl rfl rfl
  | archive name =>
    unfold performIn at hperform
    dsimp only at hperform
    split at hperform
    · obtain ⟨-, rfl⟩ := Prod.mk.inj (Option.some.inj hperform)
      exact h
    · obtain ⟨-, rfl⟩ := Prod.mk.inj (Option.some.inj hperform)
      split_ifs
      · exact h.archive name _
      · exact h
  | delete name =>
    obtain ⟨-, rfl⟩ := Prod.mk.inj (Option.some.inj hperform)
    exact h.delete hsafe
  | deliver reading outcome =>
    obtain ⟨-, rfl⟩ := Prod.mk.inj (Option.some.inj hperform)
    split
    · exact h.onTab tab _
    · exact h
  | set name text => exact hop.elim
  | settle nsec wrote => exact hop.elim
  | drop nsec => exact hop.elim
  | putBack nsec => exact hop.elim
  | readPlain | get name | archives name | isSealedOnly =>
    obtain ⟨-, rfl⟩ := Prod.mk.inj (Option.some.inj hperform)
    exact h

end Browser

/-! ### Jobs under the lock -/

open Browser

/-- What the jobs are held to: they keep what is sound, while the pages act between their steps and
no deletion takes the only copy of a kept key. -/
def keyDiscipline : Discipline browser where
  inv := Browser.Sound
  demand _ _ := True
  allow := DeletesSafely
  rely := Rely
  rely_refl := rely_refl
  rely_trans := rely_trans

variable {α : Type} {w : Browser}

def SafeAt (p : JobProg α) (w : Browser) : Prop := keyDiscipline.Safe (fun _ _ => True) p w

def Safe (p : JobProg α) : Prop := ∀ w, SafeAt p w

/-- What the pages cannot change while a job holds the lock. -/
def Steady (B : Browser → Prop) : Prop :=
  ∀ w w', B w → w'.records = w.records → (w.NotSealedOnly → w'.NotSealedOnly) → B w'

theorem safe_locked {B : Browser → Prop} (hB : Steady B) (op : JobOp) {k : op.Reply → JobProg α}
    (hop : ∀ tab job, op ≠ .acquire tab job) (hw : w.running ≠ none → B w)
    (h : ∀ tab w₁ a r w₂, B w₁ → w₁.Sound → DeletesSafely op w₁ (.store a) →
      w₁.performIn tab a op = some (r, w₂) →
        w₂.Sound ∧ SafeAt (k r) w₂) :
    SafeAt (.call op k) w := by
  have hstable : keyDiscipline.Stable fun w => w.running ≠ none → B w := by
    intro w w₁ hw hrely _ hrunning
    rcases hrely with hnone | ⟨hsame, hrecords, hnot⟩
    · exact absurd hnone hrunning
    · exact hB w w₁ (hw (hsame ▸ hrunning)) hrecords hnot
  refine Discipline.safe_call hstable hw fun w₁ hw₁ hsound => ⟨trivial, fun c r w₂ hallow hp => ?_⟩
  have hp' : w₁.perform op c = some (r, w₂) := hp
  unfold Browser.perform at hp'
  split at hp'
  · exact absurd rfl (hop _ _)
  · obtain ⟨tab, htab, hp'⟩ := Option.bind_eq_some_iff.mp hp'
    exact h tab w₁ _ r w₂ (hw₁ (htab ▸ Option.some_ne_none tab)) hsound hallow hp'
  · cases hp'

/-- The rule for an operation that leaves a kept key where it is. -/
theorem safe_harmless {k : op.Reply → JobProg α} (hop : Browser.Harmless op)
    (h : ∀ r, Safe (k r)) : Safe (.call op k) := by
  intro w
  refine Discipline.safe_call (A := fun _ => True) (fun _ _ _ _ _ => trivial) trivial
    fun w₁ _ hsound => ⟨trivial, fun c r w₂ hallow hp => ⟨?_, h r w₂⟩⟩
  have hp' : w₁.perform op c = some (r, w₂) := hp
  unfold Browser.perform at hp'
  split at hp'
  · split_ifs at hp'
    obtain ⟨-, rfl⟩ := Prod.mk.inj (Option.some.inj hp')
    exact hsound.congr rfl rfl rfl rfl rfl
  · obtain ⟨tab, -, hp'⟩ := Option.bind_eq_some_iff.mp hp'
    exact hsound.harmless hop hallow hp'
  · cases hp'

theorem safe_ret (a : α) : Safe (.ret a : JobProg α) := fun _ => trivial

theorem safe_bind {β : Type} {p : JobProg β} {f : β → JobProg α} (hp : Safe p)
    (hf : ∀ b, Safe (f b)) : Safe (p >>= f) := fun w =>
  Discipline.safe_bind (Discipline.safe_mono (fun b w _ => hf b w) (hp w))

theorem safe_call (hop : Browser.Harmless op) : Safe (call op) :=
  safe_harmless hop safe_ret

theorem safe_archiveAndDelete (name : SealedName) : Safe (archiveAndDelete name) := by
  refine safe_harmless trivial fun r => ?_
  cases r with
  | error d => exact safe_ret false
  | ok archive => exact safe_call trivial

theorem safe_clearSealed (name : SealedName) (forget : Option String) :
    Safe (clearSealed name forget) := by
  refine safe_harmless trivial fun r => ?_
  match r with
  | .ok none => exact safe_ret true
  | .ok (some current) =>
    change Safe (if some (trim current) = forget then _ else _)
    split_ifs
    · exact safe_call trivial
    · exact safe_archiveAndDelete name
  | .error _ => exact safe_archiveAndDelete name

theorem safe_clearUnwitnessed : Safe clearUnwitnessed := by
  refine safe_bind (safe_clearSealed _ _) fun cleared => ?_
  cases cleared with
  | true => exact safe_bind (safe_clearSealed _ _) fun _ => safe_ret ()
  | false => exact safe_ret ()

theorem safe_deleteArchives (nsec : String) (names : List SealedName) :
    Safe (deleteArchives nsec names) := by
  induction names with
  | nil => exact safe_ret ()
  | cons name rest ih =>
    refine safe_harmless trivial fun r => ?_
    match r with
    | .ok (some text) =>
      change Safe (if trim text = nsec then _ else _)
      split_ifs
      · refine safe_harmless trivial fun deleted => ?_
        cases deleted with
        | true => exact ih
        | false => exact safe_ret ()
      · exact ih
    | .ok none => exact ih
    | .error _ => exact ih

theorem safe_forgetArchives (nsec : String) : Safe (forgetArchives nsec) := by
  refine safe_harmless trivial fun r => ?_
  cases r with
  | error d => exact safe_ret ()
  | ok names =>
    refine safe_harmless trivial fun r => ?_
    cases r with
    | error d => exact safe_ret ()
    | ok older => exact safe_deleteArchives nsec (names ++ older)

theorem safe_forgetSealed (forget : Option String) : Safe (forgetSealed forget) := by
  refine safe_bind (safe_clearSealed _ _) fun cleared => ?_
  cases cleared with
  | false => exact safe_ret ()
  | true =>
    refine safe_bind (safe_clearSealed _ _) fun cleared => ?_
    cases cleared with
    | false => exact safe_ret ()
    | true =>
      cases forget with
      | none => exact safe_ret ()
      | some nsec => exact safe_forgetArchives nsec

/-! ### Moving the key -/

theorem steady_holdsKey (nsec : String) : Steady fun w => w.HoldsKey nsec := by
  rintro w w' ⟨r, hr, htext⟩ hrecords -
  exact ⟨r, hrecords ▸ hr, htext⟩

theorem steady_true : Steady fun _ => True := fun _ _ _ _ _ => trivial

/-- The rule for a program that reads the sealed copy back before it goes on: while the lock is
held, the store keeps what was read. -/
theorem safe_readBack {f : Except Unit (Option String) → JobProg α}
    (htext : ∀ text w, (w.running ≠ none → w.HoldsKey (trim text)) → SafeAt (f (.ok (some text))) w)
    (hnone : Safe (f (.ok none))) (herror : ∀ d, Safe (f (.error d))) :
    Safe (call (.get .sealedNsec) >>= f) := by
  intro w
  refine safe_locked steady_true (.get .sealedNsec) (fun _ _ h => by cases h) (fun _ => trivial)
    fun tab w₁ a r w₂ _ hsound _ hp => ?_
  obtain ⟨hr, rfl⟩ := Prod.mk.inj (Option.some.inj hp)
  refine ⟨hsound, ?_⟩
  match r with
  | .error d => exact herror d w₁
  | .ok none => exact hnone w₁
  | .ok (some text) =>
    refine htext text w₁ fun _ => ?_
    split_ifs at hr
    obtain ⟨record, hrecord, hrecordText⟩ := Option.map_eq_some_iff.mp (Except.ok.inj hr)
    exact ⟨record, hrecord, congrArg trim hrecordText⟩

/-- The end of a move, once the sealed copy has been read back. -/
theorem safe_settled {w : Browser} (op : JobOp) (hop : ∀ tab job, op ≠ .acquire tab job)
    (hkeeps : ∀ (w₁ : Browser) tab a r w₂, w₁.HoldsKey nsec → w₁.Sound →
      w₁.performIn tab a op = some (r, w₂) → w₂.Sound)
    (hw : w.running ≠ none → w.HoldsKey nsec) : SafeAt (call op) w :=
  safe_locked (steady_holdsKey nsec) op hop hw fun tab w₁ a r w₂ hholds hsound _ hp =>
    ⟨hkeeps w₁ tab a r w₂ hholds hsound hp, trivial⟩

theorem safe_confirmSealed (nsec : String) (wrote : Bool) : Safe (confirmSealed nsec wrote) := by
  refine safe_readBack (fun text w hholds => ?_) (safe_ret ()) fun _ => safe_ret ()
  dsimp only
  split_ifs with htext
  · refine safe_settled (.settle nsec wrote) (fun _ _ h => by cases h) ?_ (htext ▸ hholds)
    intro w₁ tab a r w₂ hholds hsound hp
    obtain ⟨-, rfl⟩ := Prod.mk.inj (Option.some.inj hp)
    exact hsound.settle hholds tab wrote
  · exact safe_ret () w

theorem safe_dropLater (nsec : String) : Safe (dropLater nsec) := by
  refine safe_harmless trivial fun plain => ?_
  change Safe (if plain = some nsec then _ else _)
  split_ifs
  · refine safe_readBack (fun text w hholds => ?_) (safe_ret ()) fun _ => safe_ret ()
    dsimp only
    split_ifs with htext
    · refine safe_settled (.drop nsec) (fun _ _ h => by cases h) ?_ (htext ▸ hholds)
      intro w₁ tab a r w₂ hholds hsound hp
      obtain ⟨-, rfl⟩ := Prod.mk.inj (Option.some.inj hp)
      exact hsound.dropPlain hholds tab
    · exact safe_ret () w
  · exact safe_ret ()

theorem safe_writeSealed (nsec : String) : Safe (writeSealed nsec) := by
  have hsteady : Steady NotSealedOnly := fun _ _ h _ hnot => hnot h
  intro w
  refine safe_locked steady_true .readPlain (fun _ _ h => by cases h) (fun _ => trivial)
    fun tab w₁ a plain w₂ _ hsound _ hp => ?_
  obtain ⟨hplain, rfl⟩ := Prod.mk.inj (Option.some.inj hp)
  refine ⟨hsound, ?_⟩
  change SafeAt (if plain = some nsec then _ else _) w₁
  split_ifs with hsame
  · have hnot : w₁.NotSealedOnly := Or.inl (hplain.trans hsame ▸ Option.some_ne_none nsec)
    refine safe_locked hsteady (.set .sealedNsec nsec) (fun _ _ h => by cases h) (fun _ => hnot)
      fun tab v a written v₂ hv hsound _ hp => ?_
    obtain ⟨-, rfl⟩ := Prod.mk.inj (Option.some.inj hp)
    refine ⟨?_, ?_⟩
    · split_ifs
      · exact hsound.set_records hv _
      · exact hsound
    · cases written with
      | true => exact safe_confirmSealed nsec true _
      | false => exact safe_ret () _
  · exact safe_ret () w₁

theorem safe_sealKept (nsec : String) : Safe (sealKept nsec) := by
  refine safe_harmless trivial fun plain => ?_
  change Safe (if plain = some nsec then _ else _)
  split_ifs
  · refine safe_harmless trivial fun r => ?_
    match r with
    | .error _ => exact safe_ret ()
    | .ok text =>
      change Safe (if heldText text = some nsec then _ else if heldText text = none then _ else _)
      split_ifs
      · exact safe_confirmSealed nsec false
      · exact safe_writeSealed nsec
      · refine safe_harmless trivial fun archive => ?_
        match archive with
        | .ok (some _) => exact safe_writeSealed nsec
        | .ok none => exact safe_ret ()
        | .error _ => exact safe_ret ()
  · exact safe_ret ()

theorem safe_watchSealed (nsec : String) : Safe (watchSealed nsec) := by
  have hsteady : Steady fun w => w.records.get .sealedNsec ≠ none := by
    intro w w' h hrecords _
    exact hrecords ▸ h
  intro w
  refine safe_locked steady_true .isSealedOnly (fun _ _ h => by cases h) (fun _ => trivial)
    fun tab w₁ a alone w₂ _ hsound _ hp => ?_
  obtain ⟨halone, rfl⟩ := Prod.mk.inj (Option.some.inj hp)
  refine ⟨hsound, ?_⟩
  cases alone with
  | false => exact safe_ret () w₁
  | true =>
    obtain ⟨hplain, horigin⟩ := of_decide_eq_true halone
    obtain ⟨hsealed, hkept⟩ := hsound.eq_of_sealedOnly hplain horigin
    have hrecord : w₁.records.get .sealedNsec ≠ none := by
      intro hnone
      unfold Browser.sealedText at hsealed
      rw [hnone] at hsealed
      exact hkept hsealed
    refine safe_locked hsteady (.get .sealedNsec) (fun _ _ h => by cases h) (fun _ => hrecord)
      fun tab v a r v₂ hv hsound _ hp => ?_
    obtain ⟨hr, rfl⟩ := Prod.mk.inj (Option.some.inj hp)
    refine ⟨hsound, ?_⟩
    match r with
    | .ok none =>
      split_ifs at hr
      exact absurd (Option.map_eq_none_iff.mp (Except.ok.inj hr)) hv
    | .ok (some text) => exact safe_ret () v
    | .error _ => exact safe_ret () v

theorem safe_main (job : ℕ × Job) : Safe (main job) := by
  obtain ⟨tab, job⟩ := job
  refine safe_bind (safe_call trivial) fun _ => safe_bind ?_ fun _ => safe_call trivial
  cases job with
  | sealKept nsec => exact safe_sealKept nsec
  | clearSaved nsec => exact safe_bind (safe_clearSealed _ _) fun _ => safe_ret ()
  | clearUnwitnessed => exact safe_clearUnwitnessed
  | forget nsec => exact safe_forgetSealed nsec
  | read reading => exact safe_harmless trivial fun _ => safe_call trivial
  | dropLater nsec => exact safe_dropLater nsec
  | watch nsec => exact safe_watchSealed nsec

/-! ### Runs -/

/-- The steps that keep a kept key: no deletion takes its only copy, and no read returns what the
store no longer holds. -/
def Careful (cfg : Config browser Unit Unit) : Event browser Unit (ℕ × Job) → Prop
  | .step _ c => ∀ op k, cfg.slots () = some (.call op k) → DeletesSafely op cfg.world c
  | .drift c => ∀ e, c = .page e → cfg.world.ReadsCurrent e
  | _ => True

theorem Fresh.sound (h : Fresh w) : w.Sound := by
  obtain ⟨records, rfl⟩ := h
  refine ⟨fun nsec hkept => ?_, fun _ => ⟨rfl, rfl⟩, fun x hx => ?_⟩
  · cases hkept
  · cases hx

theorem sound_of_run {cfg : Config browser Unit Unit}
    (h : Run (Config.exec main) (Idle Fresh) Careful cfg) : cfg.world.Sound := by
  refine (Discipline.run_safe_of_guard (D := keyDiscipline) (fun cfg ev hcareful => ?_)
    (fun w hw => hw.sound) (fun w job _ => safe_main job w) (Or.inl inferInstance)
    (fun cfg c w' hcareful hsound hdrift => ?_) h).1
  · cases ev with
    | step i c => exact hcareful
    | _ => trivial
  · cases c with
    | store a => cases hdrift
    | page e => exact hsound.onPage (hcareful e rfl) hdrift

theorem lost_of_delete {w' : Browser} (h : w.Sound) (hnot : ¬ w.NotSealedOnly) {tab : ℕ}
    {r : Bool} (hlands : a.lands = true)
    (hp : w.performIn tab a (.delete .sealedNsec) = some (r, w')) :
    ∃ nsec, w'.kept = some nsec ∧ w'.readPlain = none ∧ w'.sealedText = none := by
  obtain ⟨hplain, horigin⟩ := not_or.mp hnot
  rw [not_not] at hplain
  obtain ⟨-, hkept⟩ := h.eq_of_sealedOnly hplain horigin
  obtain ⟨nsec, hnsec⟩ := Option.ne_none_iff_exists'.mp hkept
  obtain ⟨-, rfl⟩ := Prod.mk.inj (Option.some.inj hp)
  rw [if_pos hlands]
  refine ⟨nsec, hnsec, hplain, ?_⟩
  unfold Browser.sealedText
  rw [OrderedMap.get_erase, if_pos rfl]
  rfl

theorem wrong_of_stale {w' : Browser} (h : w.Sound) {e : PageEvent} (hstale : ¬ w.ReadsCurrent e)
    (he : w.onPage e = some w') : ∃ x ∈ w'.answers, ¬ Right x.1 x.2 := by
  cases e with
  | resume tab reading =>
    unfold ReadsCurrent at hstale
    dsimp only at hstale
    push Not at hstale
    obtain ⟨sealed, hreading, hplain, horigin, hne⟩ := hstale
    obtain ⟨hkept, hsome⟩ := h.eq_of_sealedOnly hplain horigin
    obtain ⟨nsec, hnsec⟩ := Option.ne_none_iff_exists'.mp hsome
    unfold Browser.onPage at he
    dsimp only at he
    rw [hreading] at he
    obtain rfl := Option.some.inj he
    have hread : (w.setReading tab reading none).readPlain = none := hplain
    have hanswers : ((w.setReading tab reading none).resumeOpened tab sealed).answers =
        (w.kept, .key (heldText sealed)) :: w.answers := by
      unfold Browser.resumeOpened
      rw [hread]
      exact (congrArg answers (if_neg horigin)).trans rfl
    refine ⟨_, hanswers ▸ List.mem_cons_self, fun hright => ?_⟩
    rcases hright.1 nsec hnsec with hkey | hunreadable
    · exact hne (((Answer.key.inj hkey).trans hnsec.symm).trans hkept)
    · cases hunreadable
  | saveNsec | readBrowserSavedNsec | timeOut | removeBrowserSavedNsec | settleDelay | close =>
    exact absurd trivial hstale

theorem broken_of_careless {cfg cfg' : Config browser Unit Unit} {ev : Event browser Unit (ℕ × Job)}
    (h : cfg.world.Sound) (hexec : cfg.exec main ev = .ok cfg') (hcareless : ¬ Careful cfg ev) :
    (∃ x ∈ cfg'.world.answers, ¬ Right x.1 x.2) ∨
      ∃ nsec, cfg'.world.kept = some nsec ∧ cfg'.world.readPlain = none ∧
        cfg'.world.sealedText = none := by
  cases exec_happens hexec with
  | start | stop => exact absurd trivial hcareless
  | @step i c op k r w' pending outcome =>
    unfold Careful at hcareless
    dsimp only at hcareless
    push Not at hcareless
    obtain ⟨op', k', hslot, hunsafe⟩ := hcareless
    rw [pending] at hslot
    cases Option.some.inj hslot
    unfold DeletesSafely at hunsafe
    push Not at hunsafe
    obtain ⟨a, rfl, rfl, hlands, hnot⟩ := hunsafe
    obtain ⟨tab, -, hp⟩ := Option.bind_eq_some_iff.mp outcome
    exact Or.inr (lost_of_delete h hnot hlands hp)
  | @drift c w' outcome =>
    unfold Careful at hcareless
    dsimp only at hcareless
    push Not at hcareless
    obtain ⟨e, rfl, hstale⟩ := hcareless
    exact Or.inl (wrong_of_stale h hstale outcome)

/-- While no queued deletion takes the only copy of a kept key, and no read returns what the store
no longer holds, every read returns the key of the last save that no sign-out followed, or that it
cannot be opened, and none after a sign-out.  Any other step loses the key or returns a wrong
one. -/
theorem kept_key_stays {cfg : Config browser Unit Unit}
    (hrun : Run (Config.exec main) (Idle Fresh) Careful cfg) :
    (∀ x ∈ cfg.world.answers, Right x.1 x.2) ∧
    ∀ ev cfg', cfg.exec main ev = .ok cfg' → ¬ Careful cfg ev →
      (∃ x ∈ cfg'.world.answers, ¬ Right x.1 x.2) ∨
      ∃ nsec, cfg'.world.kept = some nsec ∧ cfg'.world.readPlain = none ∧
        cfg'.world.sealedText = none := by
  have hsound := sound_of_run hrun
  constructor
  · exact hsound.right
  · intro ev cfg' hexec hcareless
    exact broken_of_careless hsound hexec hcareless

/-! ### Two runs -/

def sampleKey : KeyText where
  text := "nsec1k"
  trim_ne := by decide

def page (e : PageEvent) : Event browser Unit (ℕ × Job) := .drift (.page e)

def answered (n : ℕ) : List (Event browser Unit (ℕ × Job)) :=
  List.replicate n (.step () (.store (.answers 0)))

def runs (tab : ℕ) (job : Job) (n : ℕ) : List (Event browser Unit (ℕ × Job)) :=
  .start () (tab, job) :: answered n

def savedAndSealed (tab : ℕ) : List (Event browser Unit (ℕ × Job)) :=
  page (.saveNsec tab sampleKey .generated) :: runs tab (.sealKept "nsec1k") 8

def readSealed (tab : ℕ) : List (Event browser Unit (ℕ × Job)) :=
  page (.readBrowserSavedNsec tab) :: runs tab (.read 0) 4 ++ [page (.resume tab 0)]

theorem idle_fresh : Idle Fresh (Config.idle ({} : Browser) : Config browser Unit Unit) :=
  ⟨{}, ⟨.empty, rfl⟩, rfl⟩

/-- Two reads of one tab find no key and queue a removal each.  While the first removal runs, the
other tab saves a key; it moves it into the sealed store, and the second removal takes it from
there. -/
theorem kept_key_removed : ∃ cfg : Config browser Unit Unit,
    Reachable (Config.exec main) (Idle Fresh) cfg ∧ ∃ x ∈ cfg.world.answers, ¬ Right x.1 x.2 := by
  have hrun : ∃ cfg : Config browser Unit Unit, Reachable (Config.exec main) (Idle Fresh) cfg ∧
      (cfg.world.answers.any fun x => x.1 = some "nsec1k" && x.2 = .key none) = true :=
    Run.exists_of_checked idle_fresh (fun _ _ => true) (fun _ _ _ => trivial)
      ([page (.readBrowserSavedNsec 1), .start () (1, .clearUnwitnessed)] ++ answered 1 ++
        [page (.readBrowserSavedNsec 1)] ++ answered 3 ++ savedAndSealed 2 ++
        runs 1 .clearUnwitnessed 6 ++ [page (.close 2)] ++ readSealed 1)
      (by decide +kernel)
  obtain ⟨cfg, hrun, htest⟩ := hrun
  obtain ⟨x, hx, htest⟩ := List.any_eq_true.mp htest
  obtain ⟨hkept, hkey⟩ := Bool.and_eq_true_iff.mp htest
  refine ⟨cfg, hrun, x, hx, fun hright => ?_⟩
  rw [of_decide_eq_true hkept, of_decide_eq_true hkey] at hright
  rcases hright.1 "nsec1k" rfl with h | h <;> cases h

def isCareful (cfg : Config browser Unit Unit) : Event browser Unit (ℕ × Job) → Bool
  | .step _ _ =>
    match cfg.slots () with
    | some (.call (.delete .sealedNsec) _) => false
    | _ => true
  | .drift (.page (.resume tab reading)) =>
    match (cfg.world.tabs tab).readings reading with
    | some (.opened sealed) => heldText sealed = cfg.world.sealedText
    | _ => true
  | _ => true

theorem careful_of_isCareful (cfg : Config browser Unit Unit) (ev : Event browser Unit (ℕ × Job))
    (h : isCareful cfg ev = true) : Careful cfg ev := by
  cases ev with
  | start | stop => trivial
  | step i c =>
    rintro op k hslot a rfl rfl -
    unfold isCareful at h
    dsimp only at h
    rw [hslot] at h
    cases h
  | drift c =>
    rintro e rfl
    cases e with
    | resume tab reading =>
      intro sealed hreading _ _
      unfold isCareful at h
      dsimp only at h
      rw [hreading] at h
      exact of_decide_eq_true h
    | _ => trivial

/-- A key is saved in one tab, moved, and read out of the sealed store in another one. -/
theorem kept_key_read : ∃ cfg, Run (Config.exec main) (Idle Fresh) Careful cfg ∧
    ∃ x ∈ cfg.world.answers, x.1 = some "nsec1k" ∧
      (x.2 = .key (some "nsec1k") ∨ x.2 = .unreadable) := by
  have hrun : ∃ cfg, Run (Config.exec main) (Idle Fresh) Careful cfg ∧
      (cfg.world.answers.any fun x => x.1 = some "nsec1k") = true :=
    Run.exists_of_checked idle_fresh isCareful careful_of_isCareful
      (savedAndSealed 1 ++ readSealed 2) (by decide +kernel)
  obtain ⟨cfg, hrun, htest⟩ := hrun
  obtain ⟨x, hx, hkept⟩ := List.any_eq_true.mp htest
  have hkept := of_decide_eq_true hkept
  exact ⟨cfg, hrun, x, hx, hkept, ((kept_key_stays hrun).1 x hx).1 "nsec1k" hkept⟩

end SavedKey

end ChamaEscrow
