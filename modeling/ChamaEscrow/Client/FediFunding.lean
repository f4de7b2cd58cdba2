import ChamaEscrow.Client.PendingFundings
import ChamaEscrow.Engine.Payloads
import ChamaEscrow.Library.Program

/-!
# Funding from a Fedi wallet

`runFediFundAndLock` (`fedi-fund-and-lock.ts`) spends notes out of a Fedi wallet, stashes them, and
locks them in an escrow; on any other exit it takes them back.  `drainPendingFundings` takes back
whatever it finds in the stash.

The world (`FundingWorld`) is the stash with a ledger that no program reads: which notes were
stashed, whose LOCK was published, which are back in the wallet, and which entries were cleared.
What a call leaves in a slot of the stash is `FundingWrite`.
-/

namespace ChamaEscrow

open Js Library

/-! ### Calls -/

/-- What a LOCK is to carry besides the notes. -/
structure FediLockOpts where
  savedHandleId : Option String := none
  paymentDetailsInChat : Option Bool := none
  selectedItems : Option (List SelectedMenuItem) := none

/-- The data of `RunFediFundAndLockOpts`. -/
structure FediFundOpts where
  escrowId : String
  amountMsats : JsNumber
  description : String
  lockOpts : FediLockOpts := {}

/-- What the flows call.  A clearing names the notes whose outcome its caller has seen, if any. -/
inductive FundingOp
  | preflight (escrowId : String)
  | aborted
  | assertStashWritable
  | generateEcash (amountMsats : JsNumber) (memo : String)
  | stashFunding (input : FundingInput)
  | receiveEcash (oobNotes : String)
  | clearFunding (escrowId : String) (settled : Option String)
  | lockAndPublish (escrowId oobNotes : String) (opts : FediLockOpts)
  | hasReceiveEcash
  | stashSize
  | loadStash
  | countAttempt (entry : PendingFunding)
  | noteError (escrowId message : String)

abbrev FundingOp.Reply : FundingOp → Type
  | aborted | hasReceiveEcash => Bool
  | preflight _ | receiveEcash _ => Except String Unit
  | assertStashWritable | stashFunding _ | countAttempt _ => Except StorageError Unit
  | generateEcash _ _ => Except String String
  | lockAndPublish _ _ _ => Except String (Option String)
  | stashSize => ℕ
  | loadStash => Fundings
  | clearFunding _ _ | noteError _ _ => Unit

abbrev fundingSignature : Signature := ⟨FundingOp, FundingOp.Reply⟩

abbrev FundingProg := Prog fundingSignature

def fundingCall (op : FundingOp) : FundingProg op.Reply := Prog.invoke (S := fundingSignature) op

/-! ### `runFediFundAndLock` -/

inductive FundTerminal
  | locked
  | aborted
  | lockFailed (error : String)
  deriving DecidableEq

def errMessage (message fallback : String) : String :=
  if trim message = "" then fallback else trim message

def fediGenerateErrorCopy (message : String) : String :=
  let msg := errMessage message ""
  if ["insufficient", "not enough", "exceeds", "too large"].any (includes msg.toLower) then
    "Not enough in your Fedi wallet for this trade. Top up your Fedi balance and try again."
  else
    "Fedi ecash funding failed: " ++ if msg = "" then "Fedi wallet did not return ecash." else msg

def unsavedNotesCopy : String :=
  "Chama could not return your sats to your Fedi wallet or save a copy on this device, so they may " ++
    "be lost. Please report this trade."

def beforeMark (mark : List Char) : List Char → Option (List Char)
  | [] => none
  | c :: rest =>
    if mark.isPrefixOf (c :: rest) then some [] else (beforeMark mark rest).map (c :: ·)

def withoutLocalApply (error : String) : String :=
  match beforeMark "Local apply failed:".toList error.toList with
  | some before => String.ofList before ++ "This trade could no longer be locked."
  | none => error

def takeBack (escrowId oobNotes : String) : FundingProg Bool := do
  match ← fundingCall (.receiveEcash oobNotes) with
  | .ok () =>
    fundingCall (.clearFunding escrowId (some oobNotes))
    return true
  | .error _ => return false

def failedLockCopy (recovered stashed : Bool) (originalError : String) : String :=
  withoutLocalApply originalError ++
    if recovered then " Your sats were returned to your Fedi wallet."
    else if stashed then
      " Your sats are saved — Chama will return them to your Fedi wallet next time you open it."
    else " " ++ unsavedNotesCopy

def recoverFailedLock (escrowId oobNotes originalError : String) (stashed : Bool) :
    FundingProg FundTerminal := do
  let recovered ← takeBack escrowId oobNotes
  return .lockFailed (failedLockCopy recovered stashed originalError)

/-- The LOCK of notes that hash to `expectedNotesHash`. -/
def lockNotes (opts : FediFundOpts) (oobNotes expectedNotesHash : String) (stashed : Bool) :
    FundingProg FundTerminal := do
  match ← fundingCall (.lockAndPublish opts.escrowId oobNotes opts.lockOpts) with
  | .error message =>
    recoverFailedLock opts.escrowId oobNotes (errMessage message "LOCK failed.") stashed
  | .ok lockedNotesHash =>
    if lockedNotesHash = some expectedNotesHash then
      fundingCall (.clearFunding opts.escrowId (some oobNotes))
      return .locked
    else
      recoverFailedLock opts.escrowId oobNotes "This trade was no longer lockable." stashed

def lockUnlessAborted (opts : FediFundOpts) (oobNotes expectedNotesHash : String)
    (stashed : Bool) : FundingProg FundTerminal := do
  if ← fundingCall .aborted then
    let recovered ← takeBack opts.escrowId oobNotes
    return if !recovered && !stashed then .lockFailed unsavedNotesCopy else .aborted
  else lockNotes opts oobNotes expectedNotesHash stashed

variable (sha256Hex : String → String)

/-- What becomes of notes that have left the wallet; without a safety copy they go straight back. -/
def stashAndLock (opts : FediFundOpts) (oobNotes : String) : FundingProg FundTerminal := do
  match ← fundingCall (.stashFunding ⟨opts.escrowId, oobNotes, opts.amountMsats⟩) with
  | .ok () => lockUnlessAborted opts oobNotes (sha256Hex oobNotes) true
  | .error _ =>
    if ← takeBack opts.escrowId oobNotes then
      return .lockFailed ("This device couldn't save a safety copy of the payment, so Chama returned "
        ++ "your sats to your Fedi wallet. Nothing was locked.")
    else lockUnlessAborted opts oobNotes (sha256Hex oobNotes) false

def runFediFundAndLock (opts : FediFundOpts) : FundingProg FundTerminal := do
  match ← fundingCall (.preflight opts.escrowId) with
  | .error message => return .lockFailed (errMessage message "This trade can no longer be funded.")
  | .ok () =>
    if ← fundingCall .aborted then return .aborted
    else
      match ← fundingCall .assertStashWritable with
      | .error _ =>
        return .lockFailed ("Can't fund safely right now — this device can't save a safety copy of the "
          ++ "payment. No sats moved.")
      | .ok () =>
        match ← fundingCall (.generateEcash opts.amountMsats opts.description) with
        | .error message => return .lockFailed (fediGenerateErrorCopy message)
        | .ok oobNotes => stashAndLock sha256Hex opts oobNotes

/-! ### `drainPendingFundings` -/

structure FundingDrainSummary where
  attempted : ℕ := 0
  reabsorbed : ℕ := 0
  stillPending : ℕ := 0

def PendingFunding.bumped (entry : PendingFunding) : PendingFunding :=
  { entry with attempts := entry.attempts + 1 }

def drainFunding (entry : PendingFunding) (summary : FundingDrainSummary) :
    FundingProg FundingDrainSummary := do
  match ← fundingCall (.countAttempt entry.bumped) with
  | .error _ => return { summary with stillPending := summary.stillPending + 1 }
  | .ok () =>
    match ← fundingCall (.receiveEcash entry.oobNotes) with
    | .ok () =>
      fundingCall (.clearFunding entry.escrowId (some entry.oobNotes))
      return { summary with reabsorbed := summary.reabsorbed + 1 }
    | .error message =>
      fundingCall (.noteError entry.escrowId message)
      return { summary with stillPending := summary.stillPending + 1 }

def drainFundings : List PendingFunding → FundingDrainSummary → FundingProg FundingDrainSummary
  | [], summary => return summary
  | entry :: rest, summary => do
    if maxFundingDrainAttempts ≤ entry.attempts then
      drainFundings rest { summary with stillPending := summary.stillPending + 1 }
    else
      let summary ← drainFunding entry { summary with attempted := summary.attempted + 1 }
      drainFundings rest summary

def drainPendingFundings : FundingProg FundingDrainSummary := do
  if ← fundingCall .hasReceiveEcash then
    let stash ← fundingCall .loadStash
    drainFundings stash.values {}
  else
    let pending ← fundingCall .stashSize
    return { stillPending := pending }

/-! ### Flows -/

/-- What runs on the stash: fundings, drains, and the functions of the stash on their own. -/
inductive FundingFlow
  | fund (opts : FediFundOpts)
  | drain
  | stash (input : FundingInput)
  | clear (escrowId : String)

def fundingFlow : FundingFlow → FundingProg Unit
  | .fund opts => do
    let _ ← runFediFundAndLock sha256Hex opts
    return ()
  | .drain => do
    let _ ← drainPendingFundings
    return ()
  | .stash input => do
    let _ ← fundingCall (.stashFunding input)
    return ()
  | .clear escrowId => fundingCall (.clearFunding escrowId none)

/-! ### What the calls do -/

/-- The stash, and what has become of notes and entries. -/
structure FundingWorld where
  stash : Stored Fundings := .missing
  stashed : List String := []
  published : List String := []
  received : List String := []
  cleared : List (String × String) := []

/-- What the flows do not control. -/
inductive FundingChoice
  | storage (faults : Faults) (now : JsNumber)
  | answers (yes : Bool)
  | returns
  | throws (message : String) (landed : Bool)
  | mints (oobNotes : String)
  | locks (published : Bool) (reply : Except String (Option String))

def confirmsLock (notesHash : String) : Except String (Option String) → Bool
  | .ok (some locked) => locked = notesHash
  | _ => false

namespace FundingWorld

def Settled (w : FundingWorld) (oobNotes : String) : Prop :=
  oobNotes ∈ w.published ∨ oobNotes ∈ w.received

instance (w : FundingWorld) (oobNotes : String) : Decidable (w.Settled oobNotes) :=
  inferInstanceAs (Decidable (_ ∨ _))

def holds (s : Stored Fundings) (escrowId oobNotes : String) : Bool :=
  ((fundings s).get escrowId).any fun live => live.oobNotes = oobNotes

def afterStash (w : FundingWorld) (oobNotes : String)
    (result : Except StorageError Unit × Stored Fundings) : FundingWorld :=
  { w with
    stash := result.2
    stashed := if result.1.isOk then oobNotes :: w.stashed else w.stashed
    cleared := w.cleared.filter fun e => !holds result.2 e.1 e.2 }

def afterClear (w : FundingWorld) (escrowId : String) (stash : Stored Fundings) : FundingWorld :=
  match (fundings w.stash).get escrowId, (fundings stash).get escrowId with
  | some live, none => { w with stash, cleared := (escrowId, live.oobNotes) :: w.cleared }
  | _, _ => { w with stash }

def afterReceive (w : FundingWorld) (oobNotes : String) (landed : Bool) : FundingWorld :=
  if landed then { w with received := oobNotes :: w.received } else w

/-- The world after a call of `lockAndPublish`; a LOCK that is answered for was published. -/
def afterLock (w : FundingWorld) (oobNotes : String) (published : Bool) : FundingWorld :=
  if published then { w with published := oobNotes :: w.published } else w

end FundingWorld

/-- What a call does.  Notes that are spent out of the wallet are new. -/
def performFunding : (op : FundingOp) → FundingWorld → FundingChoice →
    Option (op.Reply × FundingWorld)
  | .preflight _, w, .returns => some (.ok (), w)
  | .preflight _, w, .throws message _ => some (.error message, w)
  | .aborted, w, .answers yes => some (yes, w)
  | .assertStashWritable, w, .storage f _ => some (assertPendingFundingWritable f w.stash, w)
  | .generateEcash _ _, w, .mints oobNotes =>
    if oobNotes ∈ w.published then none else some (.ok oobNotes, w)
  | .generateEcash _ _, w, .throws message _ => some (.error message, w)
  | .stashFunding input, w, .storage f now =>
    some ((stashPendingFunding f now input w.stash).1,
      w.afterStash input.oobNotes (stashPendingFunding f now input w.stash))
  | .receiveEcash oobNotes, w, .returns => some (.ok (), w.afterReceive oobNotes true)
  | .receiveEcash oobNotes, w, .throws message landed =>
    some (.error message, w.afterReceive oobNotes landed)
  | .clearFunding escrowId _, w, .storage f _ =>
    some ((), w.afterClear escrowId (clearPendingFunding f escrowId w.stash))
  | .lockAndPublish _ oobNotes _, w, .locks published reply =>
    some (reply, w.afterLock oobNotes (published || confirmsLock (sha256Hex oobNotes) reply))
  | .hasReceiveEcash, w, .answers yes => some (yes, w)
  | .stashSize, w, .storage f _ => some ((loadFundings f w.stash).values.length, w)
  | .loadStash, w, .storage f _ => some (loadFundings f w.stash, w)
  | .countAttempt entry, w, .storage f _ =>
    some ((countAttempt f entry w.stash).1, { w with stash := (countAttempt f entry w.stash).2 })
  | .noteError escrowId message, w, .storage f _ =>
    some ((), { w with stash := noteFundingError f escrowId message w.stash })
  | _, _, _ => none

abbrev fundingPlatform : Platform where
  Op := FundingOp
  Reply := FundingOp.Reply
  World := FundingWorld
  Choice := FundingChoice
  perform := performFunding sha256Hex
  drift _ _ := none

/-! ### What the calls write -/

def FundingOp.puts : FundingOp → Option (String × String)
  | .stashFunding input => some (input.escrowId, input.oobNotes)
  | .countAttempt entry => some (entry.escrowId, entry.oobNotes)
  | _ => none

/-- Whether a call changes nothing. -/
def FundingOp.reads : FundingOp → Bool
  | .preflight _ | .aborted | .assertStashWritable | .generateEcash _ _ | .hasReceiveEcash
  | .stashSize | .loadStash => true
  | _ => false

def FundingChoice.readFails : FundingChoice → Bool
  | .storage f _ => f.read
  | _ => false

inductive FundingWrite (op : FundingOp) (c : FundingChoice) (slot : String) :
    Option PendingFunding → Option PendingFunding → Prop
  | put {before : Option PendingFunding} {entry : PendingFunding}
    (puts : op.puts = some (slot, entry.oobNotes)) : FundingWrite op c slot before (some entry)
  | unread {before : Option PendingFunding} (puts : op.puts.isSome = true)
    (fails : c.readFails = true) : FundingWrite op c slot before none
  | clear {before : Option PendingFunding} {settled : Option String}
    (clears : op = .clearFunding slot settled) : FundingWrite op c slot before none
  | mark {live next : PendingFunding} (same : next.oobNotes = live.oobNotes) :
    FundingWrite op c slot (some live) (some next)

section Writes

variable {sha256Hex} {w w' : FundingWorld} {c : FundingChoice} {op : FundingOp} {r : op.Reply}

theorem perform_of_reads (h : performFunding sha256Hex op w c = some (r, w'))
    (hreads : op.reads = true) : w' = w := by
  cases op with
  | generateEcash =>
    cases c with
    | mints oobNotes =>
      unfold performFunding at h
      dsimp only at h
      split_ifs at h
      exact (Prod.mk.inj (Option.some.inj h)).2.symm
    | throws => exact (Prod.mk.inj (Option.some.inj h)).2.symm
    | _ => cases h
  | preflight =>
    cases c with
    | returns | throws => exact (Prod.mk.inj (Option.some.inj h)).2.symm
    | _ => cases h
  | aborted | hasReceiveEcash =>
    cases c with
    | answers => exact (Prod.mk.inj (Option.some.inj h)).2.symm
    | _ => cases h
  | assertStashWritable | stashSize | loadStash =>
    cases c with
    | storage => exact (Prod.mk.inj (Option.some.inj h)).2.symm
    | _ => cases h
  | _ => cases hreads

variable {escrowId oobNotes : String}

theorem fundingWrite_of_put {f : Faults} {now : JsNumber} {s : Stored Fundings}
    {entryOf : Fundings → Option PendingFunding} {op : FundingOp}
    (hputs : op.puts = some (escrowId, oobNotes))
    (hentry : ∀ m entry, entryOf m = some entry → entry.escrowId = escrowId ∧
        entry.oobNotes = oobNotes) (slot : String) :
    (fundings (writeFunding f s entryOf).2).get slot = (fundings s).get slot ∨
      FundingWrite op (.storage f now) slot ((fundings s).get slot)
        ((fundings (writeFunding f s entryOf).2).get slot) := by
  rcases get_of_writeFunding f s entryOf slot with hsame | ⟨m, entry, -, hm, rfl, hafter⟩ | hunread
  · exact Or.inl hsame
  · right
    obtain ⟨rfl, rfl⟩ := hentry m entry hm
    rw [hafter]
    exact .put hputs
  · obtain ⟨hfailed, -, hafter⟩ := hunread
    right
    rw [hafter]
    exact .unread (by rw [hputs]; rfl) hfailed

theorem fundings_perform (h : performFunding sha256Hex op w c = some (r, w')) (slot : String) :
    (fundings w'.stash).get slot = (fundings w.stash).get slot ∨
      FundingWrite op c slot ((fundings w.stash).get slot) ((fundings w'.stash).get slot) := by
  cases op with
  | stashFunding input =>
    cases c with
    | storage f now =>
      obtain ⟨-, rfl⟩ := Prod.mk.inj (Option.some.inj h)
      refine fundingWrite_of_put rfl (fun m entry hentry => ?_) slot
      obtain rfl := Option.some.inj hentry
      exact ⟨rfl, rfl⟩
    | _ => cases h
  | countAttempt entry =>
    cases c with
    | storage f now =>
      obtain ⟨-, rfl⟩ := Prod.mk.inj (Option.some.inj h)
      refine fundingWrite_of_put rfl (fun m entry' hentry => ?_) slot
      obtain rfl := Option.some.inj hentry
      exact ⟨rfl, rfl⟩
    | _ => cases h
  | clearFunding escrowId settled =>
    cases c with
    | storage f now =>
      obtain ⟨-, rfl⟩ := Prod.mk.inj (Option.some.inj h)
      have hstash : (w.afterClear escrowId (clearPendingFunding f escrowId w.stash)).stash =
          clearPendingFunding f escrowId w.stash := by
        unfold FundingWorld.afterClear
        split <;> rfl
      rw [hstash]
      rcases get_of_clear f w.stash escrowId slot with hsame | ⟨rfl, hafter⟩
      · exact Or.inl hsame
      · right
        rw [hafter]
        exact .clear rfl
    | _ => cases h
  | noteError escrowId message =>
    cases c with
    | storage f now =>
      obtain ⟨-, rfl⟩ := Prod.mk.inj (Option.some.inj h)
      rcases get_of_writeFunding f w.stash (fun m => (m.get escrowId).map fun cur =>
        { cur with lastError := some (clipped message) }) slot with hsame | hput | ⟨-, hnone, -⟩
      · exact Or.inl hsame
      · obtain ⟨m, entry, hm, hentry, hslot, hafter⟩ := hput
        obtain ⟨live, hlive, rfl⟩ := Option.map_eq_some_iff.mp hentry
        rcases hm with rfl | ⟨-, rfl⟩
        · right
          have hescrow := (fundings w.stash).keyed escrowId live hlive
          have hbefore : (fundings w.stash).get slot = some live := by
            rw [hslot]
            exact hescrow ▸ hlive
          change FundingWrite _ _ _ _ ((fundings (noteFundingError f escrowId message w.stash)).get slot)
          unfold noteFundingError
          rw [hafter, hbefore]
          exact .mark rfl
        · cases hlive
      · cases hnone
    | _ => cases h
  | receiveEcash oobNotes =>
    left
    cases c with
    | returns =>
      obtain ⟨-, rfl⟩ := Prod.mk.inj (Option.some.inj h)
      rfl
    | throws message landed =>
      obtain ⟨-, rfl⟩ := Prod.mk.inj (Option.some.inj h)
      cases landed <;> rfl
    | _ => cases h
  | lockAndPublish escrowId oobNotes opts =>
    left
    cases c with
    | locks published reply =>
      obtain ⟨-, rfl⟩ := Prod.mk.inj (Option.some.inj h)
      unfold FundingWorld.afterLock
      split <;> rfl
    | _ => cases h
  | _ => exact Or.inl (by rw [perform_of_reads h rfl])

theorem put_perform (h : performFunding sha256Hex op w c = some (r, w'))
    (hputs : op.puts = some (escrowId, oobNotes)) : w'.stash = w.stash ∨
      ∃ entry, (fundings w'.stash).get escrowId = some entry ∧ entry.oobNotes = oobNotes := by
  cases op with
  | stashFunding input =>
    cases c with
    | storage f now =>
      obtain ⟨-, rfl⟩ := Prod.mk.inj (Option.some.inj h)
      obtain ⟨rfl, rfl⟩ := Prod.mk.inj (Option.some.inj hputs)
      refine (writeFunding_cases f w.stash _).imp_right ?_
      rintro ⟨m, entry, hentry, hslot⟩
      obtain rfl := Option.some.inj hentry
      exact ⟨_, hslot, rfl⟩
    | _ => cases h
  | countAttempt entry =>
    cases c with
    | storage f now =>
      obtain ⟨-, rfl⟩ := Prod.mk.inj (Option.some.inj h)
      obtain ⟨rfl, rfl⟩ := Prod.mk.inj (Option.some.inj hputs)
      refine (writeFunding_cases f w.stash _).imp_right ?_
      rintro ⟨m, entry', hentry, hslot⟩
      obtain rfl := Option.some.inj hentry
      exact ⟨_, hslot, rfl⟩
    | _ => cases h
  | _ => cases hputs

end Writes

/-! ### Sample runs -/

/-- The platform of the samples, in which all notes have the hash `h`. -/
abbrev samplePlatform : Platform := fundingPlatform fun _ => "h"

/-- A funding of the escrow `e`. -/
def sampleFund : FundingFlow := .fund { escrowId := "e", amountMsats := 1000, description := "" }

def stashSteps (oobNotes : String) : List FundingChoice :=
  [.returns, .answers false, .storage .none 0, .mints oobNotes, .storage .none 0]

def publishSteps : List FundingChoice := [.answers false, .locks true (.ok (some "h"))]

def stepsOf {ι : Type} (i : ι) (choices : List FundingChoice) :
    List (Event samplePlatform ι FundingFlow) :=
  choices.map fun c => .step i c

end ChamaEscrow
