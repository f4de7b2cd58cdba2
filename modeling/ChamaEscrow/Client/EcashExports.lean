import ChamaEscrow.Client.Storage
import ChamaEscrow.Js.Number
import ChamaEscrow.Library.Program

/-!
# Exports of ecash

`ecash-exports.ts` keeps the one bearer note that is on its way out of the wallet, and the flows of
the client spend a note into it, show it, and clear it once the user has confirmed the import: the
export of a wallet's balance (`EcashExportModal.tsx`, `FundWalletModal.tsx`), the payout of a claim
as ecash, and the confirmation of either (`useEscrow.ts`, `App.tsx`).

The world (`ExportWorld`) is the slot with a ledger that no program reads: the notes that were spent
and those whose import was confirmed.
-/

namespace ChamaEscrow

open Js Library

/-! ### The slot -/

inductive ExportSource
  | wallet
  | claim
  deriving DecidableEq

/-- `EcashExport` of `ecash-exports.ts`. -/
structure ExportEntry where
  notes : String
  amountMsats : JsNumber
  federationLabel : Option String := none
  createdAt : JsNumber
  source : Option ExportSource := none
  escrowId : Option String := none
  claimPublished : Option Bool := none

/-- The argument of `stashEcashExport`. -/
structure ExportInput where
  notes : String
  amountMsats : JsNumber
  federationLabel : Option String := none
  source : Option ExportSource := none
  escrowId : Option String := none
  claimPublished : Option Bool := none

/-- The faults of a function of this store: those of its first read and its write, and those of the
reads and removals that `assertEcashExportWritable` makes after the write. -/
structure ExportFaults extends Faults where
  readBack : Bool := false
  remove : Option WriteFault := none
  cleanRead : Bool := false
  cleanRemove : Option WriteFault := none

variable {α : Type}

/-- `removeScopedStorageItem`. -/
def Stored.removeItem (fault : Option WriteFault) (s : Stored α) :
    Except StorageError Unit × Stored α :=
  match fault with
  | none => (.ok (), .missing)
  | some .lost => (.error .access, s)
  | some .kept => (.error .access, .missing)

/-- `getEcashExport`: what cannot be read is no export. -/
def getEcashExport (f : Faults) (s : Stored ExportEntry) : Option ExportEntry :=
  match s.readItem f with
  | .value entry => some entry
  | _ => none

def stashEcashExport (f : Faults) (now : JsNumber) (input : ExportInput) (s : Stored ExportEntry) :
    Except StorageError Unit × Stored ExportEntry :=
  s.writeItem f
    { notes := input.notes
      amountMsats := input.amountMsats
      federationLabel := input.federationLabel
      createdAt := now
      source := some (input.source.getD .wallet)
      escrowId := input.escrowId
      claimPublished := input.claimPublished }

def publishedExport (entry : ExportEntry) (escrowId : String) : ExportInput where
  notes := entry.notes
  amountMsats := entry.amountMsats
  federationLabel := entry.federationLabel
  source := some .claim
  escrowId := some escrowId
  claimPublished := some true

def markClaimEcashExportPublished (f : Faults) (now : JsNumber) (escrowId : String)
    (s : Stored ExportEntry) : Except String Unit × Stored ExportEntry :=
  match getEcashExport f s with
  | none => (.error "This claim's ecash recovery copy was not found.", s)
  | some entry =>
    if entry.source ≠ some .claim ∨ entry.escrowId ≠ some escrowId then
      (.error "This claim's ecash recovery copy was not found.", s)
    else
      ((stashEcashExport f now (publishedExport entry escrowId) s).1.mapError fun _ => "storage",
        (stashEcashExport f now (publishedExport entry escrowId) s).2)

def cleanProbe (f : ExportFaults) : Stored ExportEntry :=
  if f.cleanRead then .garbled else (Stored.removeItem f.cleanRemove .garbled).2

/-- The probe of the slot: written, read back and removed.  It takes the place of whatever stands in
the slot. -/
def probeExportSlot (f : ExportFaults) (s : Stored ExportEntry) :
    Except StorageError Unit × Stored ExportEntry :=
  match f.write with
  | some .lost => (.error .access, s)
  | some .kept => (.error .access, cleanProbe f)
  | none =>
    if f.readBack then (.error .access, cleanProbe f)
    else
      match f.remove with
      | none => (.ok (), .missing)
      | some .lost => (.error .access, cleanProbe f)
      | some .kept => (.error .access, .missing)

def assertEcashExportWritable (f : ExportFaults) (escrowId : Option String)
    (s : Stored ExportEntry) : Except String (Option ExportEntry) × Stored ExportEntry :=
  match getEcashExport f.toFaults s with
  | some existing =>
    if escrowId.any (· ≠ "") ∧ existing.source = some .claim ∧ existing.escrowId = escrowId then
      (.ok (some existing), s)
    else
      (.error "Finish the pending ecash export in Me before creating another one. No sats moved.",
        s)
  | none =>
    match probeExportSlot f s with
    | (.ok (), s') => (.ok none, s')
    | (.error _, s') => (.error ("Can't export ecash safely right now because this device can't " ++
        "persist the recovery copy. No sats moved."), s')

/-- `clearEcashExport`: it does not look at what it clears. -/
def clearEcashExport (f : ExportFaults) (s : Stored ExportEntry) :
    Except StorageError Unit × Stored ExportEntry :=
  s.removeItem f.remove

/-! ### Calls -/

/-- What the flows call. -/
inductive ExportOp
  | assertWritable (escrowId : Option String)
  | spendNotes (amountMsats : JsNumber)
  | stash (input : ExportInput)
  | redeem (notes : String)
  | getExport
  | confirmImport (notes : String)
  | publishDeliveredClaim (escrowId : String)
  | markPublished (escrowId : String)
  | complete (escrowId : String)
  | clear

/-- What each call replies; an error of the wallet or the relays is its text. -/
abbrev ExportOp.Reply : ExportOp → Type
  | assertWritable _ => Except String (Option ExportEntry)
  | spendNotes _ => Except String String
  | stash _ | clear => Except StorageError Unit
  | redeem _ | publishDeliveredClaim _ | markPublished _ | complete _ => Except String Unit
  | getExport => Option ExportEntry
  | confirmImport _ => Unit

abbrev exportSignature : Signature := ⟨ExportOp, ExportOp.Reply⟩

abbrev ExportProg := Prog exportSignature

def exportCall (op : ExportOp) : ExportProg op.Reply := Prog.invoke (S := exportSignature) op

/-! ### Flows -/

def spendAndStash (amountMsats : JsNumber) (inputOf : String → ExportInput) :
    ExportProg (Except String String) := do
  match ← exportCall (.spendNotes amountMsats) with
  | .error message => return .error message
  | .ok notes =>
    match ← exportCall (.stash (inputOf notes)) with
    | .ok () => return .ok notes
    | .error _ =>
      let _ ← exportCall (.redeem notes)
      return .error ("Chama couldn't save the ecash recovery copy, so the export was canceled. " ++
        "Your sats stay in Chama (or auto-refund after the export timeout). Try again after " ++
        "freeing device storage.")

/-- The input of a stashing of these notes by `generate` or `createEcashExport`. -/
def walletExport (amountMsats : JsNumber) (federationLabel : Option String) (notes : String) :
    ExportInput :=
  { notes, amountMsats, federationLabel, source := some .wallet }

/-- The input of a stashing of these notes by `exportEcash`. -/
def claimExport (amountMsats : JsNumber) (escrowId notes : String) : ExportInput :=
  { notes, amountMsats, source := some .claim, escrowId := some escrowId }

/-- `generate` of the export modal and `createEcashExport` of the funding modal. -/
def exportBalance (amountMsats : JsNumber) (federationLabel : Option String) :
    ExportProg (Except String String) := do
  match ← exportCall (.assertWritable none) with
  | .error message => return .error message
  | .ok _ => spendAndStash amountMsats (walletExport amountMsats federationLabel)

/-- `prepareEcashExport` and `exportEcash` of a claim: the notes of an export that is pending for
the claim are taken up again. -/
def exportClaim (amountMsats : JsNumber) (escrowId : String) :
    ExportProg (Except String String) := do
  match ← exportCall (.assertWritable (some escrowId)) with
  | .error message => return .error message
  | .ok (some pending) => return .ok pending.notes
  | .ok none => spendAndStash amountMsats (claimExport amountMsats escrowId)

def completeAndClear (escrowId : String) : ExportProg Unit := do
  let _ ← exportCall (.complete escrowId)
  let _ ← exportCall .clear
  return ()

/-- `confirmClaimEcashExportAction`. -/
def confirmClaimExport (escrowId : String) : ExportProg Unit := do
  let pending ← exportCall .getExport
  if pending.any fun entry => entry.source = some .claim ∧ entry.escrowId = some escrowId then
    match ← exportCall (.publishDeliveredClaim escrowId) with
    | .error _ => return ()
    | .ok () =>
      match ← exportCall (.markPublished escrowId) with
      | .error _ => return ()
      | .ok () => completeAndClear escrowId
  else return ()

/-- `onConfirmCleared`: the user has confirmed that the notes on the screen are imported. -/
def confirmExport (notes : String) : ExportProg Unit := do
  exportCall (.confirmImport notes)
  let pending ← exportCall .getExport
  match pending.bind fun entry => if entry.source = some .claim then entry.escrowId else none with
  | some escrowId =>
    if escrowId = "" then
      let _ ← exportCall .clear
      return ()
    else confirmClaimExport escrowId
  | none =>
    let _ ← exportCall .clear
    return ()

/-- What runs on the slot: the export of a balance, the payout of a claim, and the return to an
export that is pending. -/
inductive ExportFlow
  | balance (amountMsats : JsNumber) (federationLabel : Option String)
  | claim (amountMsats : JsNumber) (escrowId : String)
  | resume

def exportFlow : ExportFlow → ExportProg Unit
  | .balance amountMsats federationLabel => do
    match ← exportBalance amountMsats federationLabel with
    | .ok notes => confirmExport notes
    | .error _ => return ()
  | .claim amountMsats escrowId => do
    match ← exportClaim amountMsats escrowId with
    | .ok notes => confirmExport notes
    | .error _ => return ()
  | .resume => do
    match ← exportCall .getExport with
    | some pending => confirmExport pending.notes
    | none => return ()

/-! ### What the calls do -/

/-- The slot, and what has become of notes. -/
structure ExportWorld where
  slot : Stored ExportEntry := .missing
  spent : List String := []
  confirmed : List String := []

/-- What the flows do not control. -/
inductive ExportChoice
  | storage (faults : ExportFaults) (now : JsNumber)
  | mints (notes : String)
  | returns
  | throws (message : String)

/-- What a call does.  Notes that are spent out of the wallet are new. -/
def performExport : (op : ExportOp) → ExportWorld → ExportChoice → Option (op.Reply × ExportWorld)
  | .assertWritable escrowId, w, .storage f _ =>
    some ((assertEcashExportWritable f escrowId w.slot).1,
      { w with slot := (assertEcashExportWritable f escrowId w.slot).2 })
  | .spendNotes _, w, .mints notes =>
    if notes ∈ w.spent then none else some (.ok notes, { w with spent := notes :: w.spent })
  | .spendNotes _, w, .throws message => some (.error message, w)
  | .stash input, w, .storage f now =>
    some ((stashEcashExport f.toFaults now input w.slot).1,
      { w with slot := (stashEcashExport f.toFaults now input w.slot).2 })
  | .redeem _, w, .returns => some (.ok (), w)
  | .redeem _, w, .throws message => some (.error message, w)
  | .getExport, w, .storage f _ => some (getEcashExport f.toFaults w.slot, w)
  | .confirmImport notes, w, .returns => some ((), { w with confirmed := notes :: w.confirmed })
  | .publishDeliveredClaim _, w, .returns => some (.ok (), w)
  | .publishDeliveredClaim _, w, .throws message => some (.error message, w)
  | .markPublished escrowId, w, .storage f now =>
    some ((markClaimEcashExportPublished f.toFaults now escrowId w.slot).1,
      { w with slot := (markClaimEcashExportPublished f.toFaults now escrowId w.slot).2 })
  | .complete _, w, .returns => some (.ok (), w)
  | .complete _, w, .throws message => some (.error message, w)
  | .clear, w, .storage f _ =>
    some ((clearEcashExport f w.slot).1, { w with slot := (clearEcashExport f w.slot).2 })
  | _, _, _ => none

abbrev exportPlatform : Platform where
  Op := ExportOp
  Reply := ExportOp.Reply
  World := ExportWorld
  Choice := ExportChoice
  perform := performExport
  drift _ _ := none

end ChamaEscrow
