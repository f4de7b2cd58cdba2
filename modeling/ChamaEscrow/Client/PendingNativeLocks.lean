import ChamaEscrow.Client.PendingRedemptions
import ChamaEscrow.Engine.Payloads

/-!
# The journal of native locks

`pending-native-locks.ts`: what a wallet of this device has spent for a LOCK, one entry for each
escrow.  An entry begins as an intent; it holds the notes from their spending on, and is marked
before the LOCK is published.  A read that fails counts as an empty journal, a write that fails
throws.

The recovery of an entry, which reads the trade and calls the mint between its accesses, is in
`Client.NativeLockRecovery`.
-/

namespace ChamaEscrow

open Js Library

/-! ### Entries -/

/-- `PendingNativeLockStage`. -/
inductive NativeLockStage
  | intent
  | spent
  | publishAttempted
  deriving DecidableEq

instance : ToString NativeLockStage where
  toString
    | .intent => "intent"
    | .spent => "spent"
    | .publishAttempted => "publish-attempted"

/-- `PendingNativeLockOpts`: what a resumed lock is to repeat. -/
structure NativeLockOpts where
  savedHandleId : Option String := none
  paymentDetailsInChat : Option Bool := none
  selectedItems : Option (List SelectedMenuItem) := none
  buyerPubkey : Option String := none
  deriving DecidableEq

structure PendingNativeLock where
  escrowId : String
  stage : NativeLockStage
  oobNotes : Option String := none
  amountMsats : JsNumber
  federationId : Option String
  operationId : Option String := none
  spendTimeoutSecs : Option JsNumber := none
  lockOpts : Option NativeLockOpts := none
  createdAt : JsNumber
  spentAt : Option JsNumber := none
  attempts : ℕ
  lastError : Option String := none
  deriving DecidableEq

/-- The journal, by escrow. -/
abbrev NativeLocks := OrderedMap String PendingNativeLock

def maxNativeLockDrainAttempts : ℕ := 12

def nativeLockIntentTtlMs : JsNumber := 48 * 60 * 60 * 1000

def PendingNativeLock.notes? (entry : PendingNativeLock) : Option String :=
  entry.oobNotes.filter (· ≠ "")

/-! ### Reading and writing -/

/-- What a function of the journal throws. -/
inductive NativeLockError
  | storage (e : StorageError)
  | otherNotes (escrowId : String) (stage : NativeLockStage)

/-- `loadStash`: what cannot be read is empty. -/
def loadNativeLocks (f : Faults) (s : Stored NativeLocks) : NativeLocks :=
  match s.readItem f with
  | .value locks => locks
  | _ => .empty

/-- A function that reads the journal and saves a changed one; `saveStash` throws when it fails. -/
def updateNativeLocks (f : Faults) (s : Stored NativeLocks)
    (change : NativeLocks → Option NativeLocks) :
    Except NativeLockError Unit × Stored NativeLocks :=
  match change (loadNativeLocks f s) with
  | none => (.ok (), s)
  | some next => ((s.writeItem f next).1.mapError .storage, (s.writeItem f next).2)

/-- What a function makes of the entry in a slot. -/
inductive SlotEdit
  | leave
  | remove
  | write (entry : PendingNativeLock)

def editNativeLock (escrowId : String) (g : PendingNativeLock → SlotEdit) (locks : NativeLocks) :
    Option NativeLocks :=
  (locks.get escrowId).bind fun live =>
    match g live with
    | .leave => none
    | .remove => some (locks.erase escrowId)
    | .write entry => some (locks.set escrowId entry)

/-! ### The functions of the journal -/

/-- The arguments of `stashNativeLockIntent`. -/
structure IntentInput where
  escrowId : String
  amountMsats : JsNumber
  federationId : Option String
  spendTimeoutSecs : Option JsNumber := none
  lockOpts : Option NativeLockOpts := none

def freshIntent (now : JsNumber) (input : IntentInput) : PendingNativeLock :=
  { escrowId := input.escrowId
    stage := .intent
    amountMsats := input.amountMsats
    federationId := input.federationId
    spendTimeoutSecs := input.spendTimeoutSecs
    lockOpts := input.lockOpts
    createdAt := now
    attempts := 0 }

/-- `stashNativeLockIntent`: an entry past its intent is left alone. -/
def stashNativeLockIntent (f : Faults) (now : JsNumber) (input : IntentInput)
    (s : Stored NativeLocks) : Except NativeLockError Unit × Stored NativeLocks :=
  updateNativeLocks f s fun locks =>
    if (locks.get input.escrowId).any fun entry => entry.stage ≠ .intent then none
    else some (locks.set input.escrowId (freshIntent now input))

/-- The arguments of `upgradeNativeLockToSpent`. -/
structure SpentInput extends IntentInput where
  oobNotes : String
  operationId : Option String := none

def spentEntry (now : JsNumber) (input : SpentInput) (existing : Option PendingNativeLock) :
    PendingNativeLock :=
  { escrowId := input.escrowId
    stage := .spent
    oobNotes := some input.oobNotes
    amountMsats := input.amountMsats
    federationId := input.federationId.or (existing.bind (·.federationId))
    operationId := input.operationId
    spendTimeoutSecs := input.spendTimeoutSecs.or (existing.bind (·.spendTimeoutSecs))
    lockOpts := input.lockOpts.or (existing.bind (·.lockOpts))
    createdAt := (existing.map (·.createdAt)).getD now
    spentAt := (existing.bind (·.spentAt)).or (some now)
    attempts := 0 }

/-- `upgradeNativeLockToSpent`: throws rather than write over other notes. -/
def upgradeNativeLockToSpent (f : Faults) (now : JsNumber) (input : SpentInput)
    (s : Stored NativeLocks) : Except NativeLockError Unit × Stored NativeLocks :=
  let existing := (loadNativeLocks f s).get input.escrowId
  match existing.filter fun entry => entry.notes?.any (· ≠ input.oobNotes) with
  | some entry => (.error (.otherNotes input.escrowId entry.stage), s)
  | none =>
    updateNativeLocks f s fun locks => some
        (locks.set input.escrowId (spentEntry now input existing))

def markNativeLockPublishAttempted (f : Faults) (escrowId : String) (s : Stored NativeLocks) :
    Except NativeLockError Unit × Stored NativeLocks :=
  updateNativeLocks f s (editNativeLock escrowId fun live =>
    if live.notes?.isSome then .write { live with stage := .publishAttempted } else .leave)

def clearPendingNativeLock (f : Faults) (escrowId : String) (s : Stored NativeLocks) :
    Except NativeLockError Unit × Stored NativeLocks :=
  updateNativeLocks f s (editNativeLock escrowId fun _ => .remove)

def clearPendingNativeLockIfIntent (f : Faults) (escrowId : String) (s : Stored NativeLocks) :
    Except NativeLockError Unit × Stored NativeLocks :=
  updateNativeLocks f s (editNativeLock escrowId fun live =>
    if live.stage = .intent then .remove else .leave)

/-- `clearPendingNativeLockMatching`, for the notes of an entry. -/
def clearPendingNativeLockMatching (f : Faults) (entry : PendingNativeLock)
    (s : Stored NativeLocks) : Except NativeLockError Unit × Stored NativeLocks :=
  updateNativeLocks f s (editNativeLock entry.escrowId fun live =>
    if live.oobNotes = entry.oobNotes then .remove else .leave)

/-- `clearAllPendingNativeLocks`: a removal that fails is let pass. -/
def clearAllPendingNativeLocks (f : Faults) (s : Stored NativeLocks) : Stored NativeLocks :=
  if f.write = some .lost then s else .missing

/-! ### What recovery writes -/

def isSameIntent (entry live : PendingNativeLock) : Bool :=
  live.stage = .intent && live.createdAt.strictEq entry.createdAt

/-- The removal of an intent that nothing came of, unless another attempt has taken its place:
whether it was there. -/
def clearStaleIntent (f : Faults) (entry : PendingNativeLock) (s : Stored NativeLocks) :
    Except NativeLockError Bool × Stored NativeLocks :=
  let written := updateNativeLocks f s (editNativeLock entry.escrowId fun live =>
    if isSameIntent entry live then .remove else .leave)
  (written.1.map fun _ => ((loadNativeLocks f s).get entry.escrowId).any (isSameIntent entry),
    written.2)

/-- The attempt that `reabsorb` counts before it makes it. -/
def bumpAttempts (f : Faults) (entry : PendingNativeLock) (s : Stored NativeLocks) :
    Except NativeLockError Unit × Stored NativeLocks :=
  updateNativeLocks f s (editNativeLock entry.escrowId fun live =>
    if live.oobNotes = entry.oobNotes then .write { live with attempts := live.attempts + 1 }
    else .leave)

/-- An intent in the place of notes that are back in the wallet. -/
def downgraded (now : JsNumber) (entry : PendingNativeLock) : PendingNativeLock :=
  { escrowId := entry.escrowId
    stage := .intent
    amountMsats := entry.amountMsats
    federationId := entry.federationId
    spendTimeoutSecs := entry.spendTimeoutSecs
    lockOpts := entry.lockOpts
    createdAt := now
    attempts := 0 }

def downgradeReabsorbedToIntent (f : Faults) (now : JsNumber) (entry : PendingNativeLock)
    (s : Stored NativeLocks) : Except NativeLockError Unit × Stored NativeLocks :=
  updateNativeLocks f s (editNativeLock entry.escrowId fun live =>
    if live.oobNotes = entry.oobNotes then .write (downgraded now entry) else .leave)

/-- `noteKept`, which never counts an attempt: the reason goes to whatever entry is in the slot. -/
def noteKept (f : Faults) (escrowId reason : String) (s : Stored NativeLocks) :
    Except NativeLockError Unit × Stored NativeLocks :=
  updateNativeLocks f s (editNativeLock escrowId fun live =>
    .write { live with lastError := some (clipped reason) })

/-! ### Calls -/

inductive NativeLockCall
  | intent (now : JsNumber) (input : IntentInput)
  | spent (now : JsNumber) (input : SpentInput)
  | publishAttempted (escrowId : String)
  | clear (escrowId : String)
  | clearIfIntent (escrowId : String)
  | clearAll

def NativeLockCall.run (f : Faults) : NativeLockCall → Stored NativeLocks → Stored NativeLocks
  | intent now input, s => (stashNativeLockIntent f now input s).2
  | spent now input, s => (upgradeNativeLockToSpent f now input s).2
  | publishAttempted escrowId, s => (markNativeLockPublishAttempted f escrowId s).2
  | clear escrowId, s => (clearPendingNativeLock f escrowId s).2
  | clearIfIntent escrowId, s => (clearPendingNativeLockIfIntent f escrowId s).2
  | clearAll, s => clearAllPendingNativeLocks f s

/-! ### What is in a slot -/

def nativeLocks : Stored NativeLocks → NativeLocks
  | .value locks => locks
  | _ => .empty

variable {f : Faults} {s : Stored NativeLocks} {escrowId slot : String}

/-- A journal in which something was found is the one that is stored. -/
theorem loadNativeLocks_eq {live : PendingNativeLock}
    (h : (loadNativeLocks f s).get escrowId = some live) : loadNativeLocks f s = nativeLocks s := by
  unfold loadNativeLocks Stored.readItem at h ⊢
  split_ifs at h ⊢ with hread
  · cases h
  · cases s <;> rfl

theorem updateNativeLocks_stored (f : Faults) (s : Stored NativeLocks)
    (change : NativeLocks → Option NativeLocks) :
    (updateNativeLocks f s change).2 = s ∨
      ∃ next, change (loadNativeLocks f s) = some next ∧
        (updateNativeLocks f s change).2 = .value next := by
  unfold updateNativeLocks
  cases hchange : change (loadNativeLocks f s) with
  | none => exact Or.inl rfl
  | some next =>
    rcases writeItem_cases f s next with hvalue | ⟨-, hsame⟩
    · exact Or.inr ⟨next, rfl, hvalue⟩
    · exact Or.inl hsame

def SlotEdit.result : SlotEdit → Option (Option PendingNativeLock)
  | .leave => none
  | .remove => some none
  | .write entry => some (some entry)

theorem get_editNativeLock (f : Faults) (s : Stored NativeLocks) (escrowId : String)
    (g : PendingNativeLock → SlotEdit) (slot : String) :
    (nativeLocks (updateNativeLocks f s (editNativeLock escrowId g)).2).get slot =
        (nativeLocks s).get slot ∨
      slot = escrowId ∧ ∃ live, (nativeLocks s).get escrowId = some live ∧
        (g live).result =
          some ((nativeLocks (updateNativeLocks f s (editNativeLock escrowId g)).2).get slot) := by
  rcases updateNativeLocks_stored f s (editNativeLock escrowId g) with hsame | ⟨next, hnext, hvalue⟩
  · exact Or.inl (by rw [hsame])
  · obtain ⟨live, hlive, hedit⟩ := Option.bind_eq_some_iff.mp hnext
    have hread := loadNativeLocks_eq hlive
    rw [hread] at hlive hedit
    rw [hvalue]
    change next.get slot = _ ∨ _ ∧ ∃ live, _ ∧ _ = some (next.get slot)
    cases hg : g live with
    | leave =>
      rw [hg] at hedit
      cases hedit
    | remove =>
      rw [hg] at hedit
      obtain rfl := Option.some.inj hedit
      rw [OrderedMap.get_erase]
      split_ifs with hslot
      · exact Or.inr ⟨hslot, live, hlive, by rw [hg]; rfl⟩
      · exact Or.inl rfl
    | write entry =>
      rw [hg] at hedit
      obtain rfl := Option.some.inj hedit
      rw [OrderedMap.get_set]
      split_ifs with hslot
      · exact Or.inr ⟨hslot, live, hlive, by rw [hg]; rfl⟩
      · exact Or.inl rfl

end ChamaEscrow
