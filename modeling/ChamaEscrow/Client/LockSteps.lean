import ChamaEscrow.Client.NativeLockRaces
import ChamaEscrow.Client.VoteSlots
import ChamaEscrow.Trade.Provenance

/-!
# The steps of a withheld LOCK

The programs that take the three steps, from `escrow-client.ts` and `escrow-bridge.ts`: the other
principal accepts (`maybeAutoAccept`), the funder releases the shares (`maybeAutoRelease`) or takes
the notes back (`withdrawWithheldLock`, then the recovery of the native lock).  Every device has its
own trade, stores and signer; a load replays some of the events that were published, and anything
that needs no answer from the program may happen in between.
-/

namespace ChamaEscrow

open Js Library VoteSlots

/-! ### The LOCK of a funder -/

/-- What `ownUnreleasedWithheldLock` returns. -/
structure OwnLock where
  lock : ParsedEscrowEvent
  withheld : Withheld
  notesHash : String

def ownUnreleasedWithheldLock (state : EscrowState) (me : String) : Option OwnLock :=
  if (state.status = .locked || state.status = .expired) && usesWithheldShares state.createdAt
      && state.chamaPolicy.isNone && state.lock.onchain.isNone then
    match truthyKey state.lock.notesHash.text?, state.lock.withheld, state.lockEvent? with
    | some notesHash, some withheld, some lock =>
      if (truthyKey withheld.releaseEventId).isNone && withheld.lockerPubkey = me
          && lock.pubkey = me then some ⟨lock, withheld, notesHash⟩
      else none
    | _, _, _ => none
  else none

def OwnLock.withheldBackup (own : OwnLock) : Option String :=
  match own.lock.payload with
  | .lock p => truthyKey (p.rest.field "withheldBackup").text?
  | _ => none

/-! ### Calls -/

/-- What a client reads again before it publishes a step. -/
inductive StepCheck
  | unaccepted (lockId : String)
  | releasable (acceptEventId : String)
  | unreleased

inductive WithdrawGate
  | alreadySent
  | nothing
  | running
  | sentThis
  | releasing
  | entered
  deriving DecidableEq

inductive Publication
  | changed
  | failed
  | sent
  deriving DecidableEq

/-- What the programs call, each on its device. -/
inductive LockStepOp (ι : Type)
  | trade (d : ι)
  | loadEscrow (d : ι) (fullHistory : Bool)
  | enterAccept (d : ι) (lockId : String)
  | leaveAccept (d : ι) (lockId : String)
  | enterRelease (d : ι) (lockId : String)
  | leaveRelease (d : ι) (lockId : String)
  | enterWithdraw (d : ι) (lockId : Option String)
  | leaveWithdraw (d : ι) (lockId : String)
  | awaitWithdraw (d : ι)
  | noteWithdraw (d : ι) (lockId : String)
  | loadShares (d : ι) (notesHash : String)
  | saveShares (d : ι) (notesHash : String) (shares : List HeldShare)
  | choose (d : ι) (notesHash : String) (step : WithheldStep)
  | retire (d : ι) (notesHash : String)
  | nip44Decrypt (d : ι) (ciphertext sender : String)
  | nip44Encrypt (d : ι) (plaintext recipient : String)
  | sign (d : ι) (payload : LockStepPayload) (prevEventId : String)
  | publish (d : ι) (check : StepCheck) (event : ParsedEscrowEvent)
  | applyLocally (d : ι) (event : ParsedEscrowEvent)
  | recovery (d : ι) (op : NativeLockOp)

/-- What each call replies; a signer that declines and a step that throws reply `none`. -/
abbrev LockStepOp.Reply {ι : Type} : LockStepOp ι → Type
  | trade _ => Option LoadedTrade
  | loadEscrow _ _ => Except MintError (Option LoadedTrade)
  | enterAccept _ _ | enterRelease _ _ | awaitWithdraw _ => Bool
  | enterWithdraw _ _ => WithdrawGate
  | loadShares _ _ => Option WithheldShareRecord
  | saveShares _ _ _ | choose _ _ _ | retire _ _ => Bool
  | nip44Decrypt _ _ _ => Option (List HeldShare)
  | nip44Encrypt _ _ _ => Option String
  | sign _ _ _ => Option ParsedEscrowEvent
  | publish _ _ _ => Publication
  | recovery _ op => op.Reply
  | _ => Unit

abbrev lockStepSignature (ι : Type) : Signature := ⟨LockStepOp ι, LockStepOp.Reply⟩

abbrev LockStepProg (ι : Type) := Prog (lockStepSignature ι)

variable {ι : Type}

def lockStepCall (op : LockStepOp ι) : LockStepProg ι op.Reply :=
  Prog.invoke (S := lockStepSignature ι) op

def onDevice {α : Type} (d : ι) : NativeLockProg α → LockStepProg ι α
  | .ret a => .ret a
  | .call op k => .call (.recovery d op) fun r => onDevice d (k r)

theorem onDevice_bind {α β : Type} (d : ι) (p : NativeLockProg α) (f : α → NativeLockProg β) :
    onDevice d (p >>= f) = onDevice d p >>= fun a => onDevice d (f a) := by
  induction p with
  | ret a => rfl
  | call op k ih => exact congrArg (Prog.call _) (funext ih)

/-! ### Programs -/

/-- One trade and the keys of the devices that hold it. -/
structure TradeParties (ι : Type) where
  host : Host
  escrowId : String
  creator : Option String
  pubkey : ι → String

variable (T : TradeParties ι)

def acceptPayload (lock : ParsedEscrowEvent) : LockStepPayload :=
  { step := .accept, lockEventId := lock.id }

def maybeAutoAccept (d : ι) : LockStepProg ι Unit := do
  match ← lockStepCall (.trade d) with
  | none => return ()
  | some trade =>
    let state := trade.state
    if state.status = .locked && usesWithheldShares state.createdAt && state.chamaPolicy.isNone
        && state.lock.onchain.isNone && (truthyKey state.lock.acceptEventId).isNone then
      match state.lockEvent? with
      | none => return ()
      | some lock =>
        if truthyKey (lockCounterparty state lock.pubkey) ≠ some (T.pubkey d) then return ()
        else if !(← lockStepCall (.enterAccept d lock.id)) then return ()
        else
          match ← lockStepCall (.sign d (acceptPayload lock) lock.id) with
          | none => lockStepCall (.leaveAccept d lock.id)
          | some signed =>
            match ← lockStepCall (.publish d (.unaccepted lock.id) signed) with
            | .sent =>
              lockStepCall (.applyLocally d signed)
              lockStepCall (.leaveAccept d lock.id)
            | _ => lockStepCall (.leaveAccept d lock.id)
    else return ()

/-- `heldBackShares`: this device's copy, else the LOCK's own backup, after a full read; a step that
throws ends the release as no shares do. -/
def heldBackShares (d : ι) (own : OwnLock) : LockStepProg ι (Option WithheldShareRecord) := do
  let saved ← lockStepCall (.loadShares d own.notesHash)
  if saved.any fun record => record.step = some .withdraw then return none
  else if saved.any fun record => record.shares.length = 2 then return saved
  else
    match own.withheldBackup with
    | none => return none
    | some backup =>
      match ← lockStepCall (.loadEscrow d true) with
      | .ok (some fresh) =>
        if (ownUnreleasedWithheldLock fresh.state own.lock.pubkey).isNone
            || (truthyKey fresh.state.lock.acceptEventId).isNone
            || fresh.state.lockEvent?.map ParsedEscrowEvent.id ≠ some own.lock.id then return none
        else
          match ← lockStepCall (.nip44Decrypt d backup own.lock.pubkey) with
          | none => return none
          | some shares =>
            if shares.length ≠ 2 then return none
            else if !(← lockStepCall (.saveShares d own.notesHash shares)) then return none
            else lockStepCall (.loadShares d own.notesHash)
      | _ => return none

/-- One share, encrypted for each of its recipients. -/
def sealFor (d : ι) (plaintext : String) : List String →
    LockStepProg ι (Option (List (String × String)))
  | [] => return some []
  | pk :: rest => do
    match ← lockStepCall (.nip44Encrypt d plaintext pk) with
    | none => return none
    | some sealed =>
      let others ← sealFor d plaintext rest
      return others.map ((pk, sealed) :: ·)

def sealShares (d : ι) (state : EscrowState) (record : WithheldShareRecord)
    (recipients : JsNumber → List String) : List JsNumber →
    LockStepProg ι (Option (List LockShareEntry))
  | [] => return some []
  | shareIndex :: rest => do
    match record.shares.find? fun share => share.shareIndex.strictEq shareIndex with
    | none => return none
    | some share =>
      if !releasedShareMatches T.host state shareIndex share.plaintext then return none
      else
        match ← sealFor d share.plaintext (recipients shareIndex) with
        | none => return none
        | some encryptedFor =>
          let others ← sealShares d state record recipients rest
          return others.map (⟨shareIndex, encryptedFor⟩ :: ·)

def heldBackIndices (own : OwnLock) : List JsNumber :=
  ([0, 1, 2] : List JsNumber).filter fun index => !index.strictEq own.withheld.lockerShareIndex

def recipientsOfShare (buyer seller : String) (arbiters : List String) (shareIndex : JsNumber) :
    List String :=
  if shareIndex.strictEq 2 then arbiters else if shareIndex.strictEq 0 then [buyer] else [seller]

def releasedShares (d : ι) (state : EscrowState) (own : OwnLock) :
    LockStepProg ι (Option (List LockShareEntry)) := do
  match ← heldBackShares d own with
  | none => return none
  | some record =>
    match truthyKey state.participants.buyer, truthyKey state.participants.seller,
        truthyKey state.participants.arbiter with
    | some buyer, some seller, some arbiter =>
      match arbiterShareHolders state arbiter with
      | .error _ => return none
      | .ok arbiters =>
        sealShares T d state record (recipientsOfShare buyer seller arbiters) (heldBackIndices own)
    | _, _, _ => return none

def releasePayload (lock : ParsedEscrowEvent) (shares : List LockShareEntry) : LockStepPayload :=
  { step := .release, lockEventId := lock.id, shares }

def sendRelease (d : ι) (own : OwnLock) (acceptEventId : String) (shares : List LockShareEntry) :
    LockStepProg ι Unit := do
  if !(← lockStepCall (.choose d own.notesHash .release)) then return ()
  else
    match ← lockStepCall (.sign d (releasePayload own.lock shares) acceptEventId) with
    | none => return ()
    | some signed =>
      match ← lockStepCall (.publish d (.releasable acceptEventId) signed) with
      | .sent => lockStepCall (.applyLocally d signed)
      | _ => return ()

def maybeAutoRelease (d : ι) : LockStepProg ι Unit := do
  match ← lockStepCall (.trade d) with
  | none => return ()
  | some trade =>
    match truthyKey trade.state.lock.acceptEventId,
        ownUnreleasedWithheldLock trade.state (T.pubkey d) with
    | some acceptEventId, some own =>
      if trade.state.status ≠ .locked then return ()
      else if !(← lockStepCall (.enterRelease d own.lock.id)) then return ()
      else
        match ← releasedShares T d trade.state own with
        | none => lockStepCall (.leaveRelease d own.lock.id)
        | some shares =>
          sendRelease d own acceptEventId shares
          lockStepCall (.leaveRelease d own.lock.id)
    | _, _ => return ()

def withdrawPayload (lock : ParsedEscrowEvent) : LockStepPayload :=
  { step := .withdraw, lockEventId := lock.id }

def sendWithdraw (d : ι) (own : OwnLock) : LockStepProg ι Bool := do
  let saved ← lockStepCall (.loadShares d own.notesHash)
  if saved.any fun record => record.step = some .release then return false
  else if !(← lockStepCall (.retire d own.notesHash)) then return false
  else
    match ← lockStepCall (.sign d (withdrawPayload own.lock) own.lock.id) with
    | none => return false
    | some signed =>
      match ← lockStepCall (.publish d .unreleased signed) with
      | .sent =>
        lockStepCall (.noteWithdraw d own.lock.id)
        match ← lockStepCall (.loadEscrow d false) with
        | .ok _ => return true
        | .error _ => return false
      | _ => return false

/-- `withdrawWithheldLock` of the client: whether it returns, or throws. -/
def withdrawWithheldLock (d : ι) : LockStepProg ι Bool := do
  match ← lockStepCall (.trade d) with
  | none => return false
  | some trade =>
    let own := ownUnreleasedWithheldLock trade.state (T.pubkey d)
    match ← lockStepCall (.enterWithdraw d (own.map fun own => own.lock.id)) with
    | .alreadySent => return true
    | .nothing | .releasing => return false
    | .running => lockStepCall (.awaitWithdraw d)
    | .sentThis =>
      match ← lockStepCall (.loadEscrow d false) with
      | .ok _ => return true
      | .error _ => return false
    | .entered =>
      match own with
      | none => return false
      | some own =>
        let returned ← sendWithdraw d own
        lockStepCall (.leaveWithdraw d own.lock.id)
        return returned

/-- `withdrawWithheldLock` of the bridge: the withdraw, and then the recovery of the notes. -/
def withdrawAndRecover (d : ι) : LockStepProg ι Unit := do
  if !(← withdrawWithheldLock T d) then return ()
  else
    let _ ← onDevice d (settlePendingNativeLock true T.escrowId)
    return ()

/-- What a device runs. -/
inductive LockStepTask (ι : Type)
  | accept (d : ι)
  | release (d : ι)
  | takeBack (d : ι)

def runLockStep : LockStepTask ι → LockStepProg ι Unit
  | .accept d => maybeAutoAccept T d
  | .release d => maybeAutoRelease T d
  | .takeBack d => withdrawAndRecover T d

/-! ### Devices -/

/-- What a device holds: the trade as it last read it, its stores, and its steps under way. -/
structure Device where
  trade : Option LoadedTrade := none
  stores : NativeLockWorld := {}
  accepting : List String := []
  releasing : List String := []
  withdrawing : List String := []
  withdrawn : List String := []

/-- The relays and the devices, with the trades that recoveries were shown and the entries whose
notes they have handed to the mint. -/
structure LockStepWorld (ι : Type) where
  published : List ParsedEscrowEvent
  device : ι → Device
  shown : List LoadedTrade := []
  redeemed : List PendingNativeLock := []

/-- What the programs do not control, and what happens beside them. -/
inductive LockStepChoice (ι : Type)
  | reads (events : List ℕ) (mark : Option CustodyDurability)
  | keeps
  | throws (e : MintError)
  | returns
  | answers (yes : Bool)
  | storage (faults : CheckedFaults) (now : JsNumber)
  | opens (shares : List HeldShare)
  | seals (ciphertext : String)
  | signs (raw : NostrEvent)
  | fails (reached : Bool)
  | native (choice : NativeLockChoice)
  | posts (event : ParsedEscrowEvent)
  | delivers (d : ι) (event : ℕ)
  | reloads (d : ι) (events : List ℕ) (mark : Option CustodyDurability)
  | restarts (d : ι)

variable {T} [DecidableEq ι]

namespace LockStepWorld

def onto (w : LockStepWorld ι) (d : ι) (device : Device) : LockStepWorld ι :=
  { w with device := Function.update w.device d device }

theorem onto_device (w : LockStepWorld ι) (d d' : ι) (device : Device) :
    (w.onto d device).device d' = if d' = d then device else w.device d' :=
  Function.update_apply w.device d device d'

def afterLoad (w : LockStepWorld ι) (d : ι) : Except MintError (Option LoadedTrade) →
    LockStepWorld ι
  | .ok (some trade) => w.onto d { w.device d with trade := some trade }
  | _ => w

def afterShown (w : LockStepWorld ι) : Except MintError (Option LoadedTrade) → LockStepWorld ι
  | .ok (some trade) => { w with shown := trade :: w.shown }
  | _ => w

def withEvent (w : LockStepWorld ι) (event : ParsedEscrowEvent) : LockStepWorld ι :=
  { w with published := w.published ++ [event] }

def isFresh (w : LockStepWorld ι) (event : ParsedEscrowEvent) : Bool :=
  !w.published.any fun e => e.id = event.id

end LockStepWorld

def isRelease (event : ParsedEscrowEvent) : Bool :=
  match event.payload with
  | .lockStep p => p.step = .release
  | _ => false

def StepCheck.passes (me : String) (latest : Option LoadedTrade) : StepCheck → Bool
  | unaccepted lockId => latest.any fun trade =>
      trade.state.status = .locked && (truthyKey trade.state.lock.acceptEventId).isNone
        && trade.state.hasEvent lockId
  | releasable acceptEventId => latest.any fun trade =>
      (ownUnreleasedWithheldLock trade.state me).isSome
        && trade.state.lock.acceptEventId = some acceptEventId
  | unreleased => latest.any fun trade => (ownUnreleasedWithheldLock trade.state me).isSome

def Device.withdrawGate (device : Device) : Option String → WithdrawGate
  | none => if device.withdrawn.isEmpty then .nothing else .alreadySent
  | some lockId =>
    if lockId ∈ device.withdrawing then .running
    else if lockId ∈ device.withdrawn then .sentThis
    else if lockId ∈ device.releasing then .releasing
    else .entered

variable (T)

/-- What a load returns: the replay of some of the published events, the trade as it was held, or
an error. -/
def loadedTrade (w : LockStepWorld ι) (d : ι) :
    LockStepChoice ι → Option (Except MintError (Option LoadedTrade))
  | .reads events mark => some <| .ok <|
      (replayEventChain T.host (events.filterMap (w.published[·]?)) T.creator).toOption.map
        fun r => { r with custodyDurability := mark }
  | .keeps => some (.ok (w.device d).trade)
  | .throws e => some (.error e)
  | _ => none

/-- The entry whose notes a call hands to the mint. -/
def NativeLockOp.redeems : NativeLockOp → List PendingNativeLock
  | .redeemNotes entry | .redeemRejectedNotes entry => [entry]
  | _ => []

def performRecovery (d : ι) : (op : NativeLockOp) → LockStepWorld ι → LockStepChoice ι →
    Option (op.Reply × LockStepWorld ι)
  | .loadEscrow _, w, c => (loadedTrade T w d c).map fun r => (r, (w.afterLoad d r).afterShown r)
  | op, w, .native c =>
    (performNativeLock T.host.sha256Hex op (w.device d).stores c).map fun out =>
      (out.1, { w.onto d { w.device d with stores := out.2 } with
        redeemed := op.redeems ++ w.redeemed })
  | _, _, _ => none

/-- What a call does. -/
def performLockStep : (op : LockStepOp ι) → LockStepWorld ι → LockStepChoice ι →
    Option (op.Reply × LockStepWorld ι)
  | .trade d, w, .returns => some ((w.device d).trade, w)
  | .loadEscrow d _, w, c => (loadedTrade T w d c).map fun r => (r, w.afterLoad d r)
  | .enterAccept d lockId, w, .returns =>
    let free := lockId ∉ (w.device d).accepting
    some (free, if free then
      w.onto d { w.device d with accepting := lockId :: (w.device d).accepting } else w)
  | .leaveAccept d lockId, w, .returns => some ((), w.onto d
      { w.device d with accepting := (w.device d).accepting.filter (· ≠ lockId) })
  | .enterRelease d lockId, w, .returns =>
    let free := lockId ∉ (w.device d).releasing ∧ lockId ∉ (w.device d).withdrawing
    some (free, if free then
      w.onto d { w.device d with releasing := lockId :: (w.device d).releasing } else w)
  | .leaveRelease d lockId, w, .returns => some ((), w.onto d
      { w.device d with releasing := (w.device d).releasing.filter (· ≠ lockId) })
  | .enterWithdraw d lockId, w, .returns =>
    let gate := (w.device d).withdrawGate lockId
    some (gate, if gate = .entered then
      w.onto d { w.device d with
        withdrawing := lockId.toList ++ (w.device d).withdrawing } else w)
  | .leaveWithdraw d lockId, w, .returns => some ((), w.onto d
      { w.device d with withdrawing := (w.device d).withdrawing.filter (· ≠ lockId) })
  | .awaitWithdraw _, w, .answers yes => some (yes, w)
  | .noteWithdraw d lockId, w, .returns => some ((), w.onto d
      { w.device d with withdrawn := lockId :: (w.device d).withdrawn })
  | .loadShares d notesHash, w, .storage f _ =>
    some (loadShares f.read T.escrowId notesHash (w.device d).stores.withheld, w)
  | .saveShares d notesHash shares, w, .storage f now =>
    let out := saveShares f now { escrowId := T.escrowId, notesHash, shares, savedAt := now }
      (w.device d).stores.withheld
    some (out.1, w.onto d { w.device d with
      stores := { (w.device d).stores with withheld := out.2 } })
  | .choose d notesHash step, w, .storage f now =>
    let out := chooseStep f now T.escrowId notesHash step (w.device d).stores.withheld
    some (out.1, w.onto d { w.device d with
      stores := { (w.device d).stores with withheld := out.2 } })
  | .retire d notesHash, w, .storage f now =>
    let out := retireShares f now T.escrowId notesHash (w.device d).stores.withheld
    some (out.1, w.onto d { w.device d with
      stores := { (w.device d).stores with withheld := out.2 } })
  | .nip44Decrypt _ _ _, w, .opens shares => some (some shares, w)
  | .nip44Decrypt _ _ _, w, .fails _ => some (none, w)
  | .nip44Encrypt _ _ _, w, .seals ciphertext => some (some ciphertext, w)
  | .nip44Encrypt _ _ _, w, .fails _ => some (none, w)
  | .sign d payload prevEventId, w, .signs raw =>
    if raw.pubkey = T.pubkey d then
      some (some { raw, payload := .lockStep payload, escrowId := T.escrowId
                   prevEventId := some prevEventId }, w)
    else none
  | .sign _ _ _, w, .fails _ => some (none, w)
  | .publish d check event, w, c =>
    if !check.passes (T.pubkey d) (w.device d).trade then some (.changed, w)
    else if !w.isFresh event then none
    else
      match c with
      | .returns => some (.sent, w.withEvent event)
      | .fails reached => some (.failed, if reached then w.withEvent event else w)
      | _ => none
  | .applyLocally d event, w, .returns =>
    match (w.device d).trade with
    | none => some ((), w)
    | some trade =>
      match applyToState T.host trade.state event with
      | .ok state => some ((), w.onto d { w.device d with trade := some { trade with state } })
      | .error _ => some ((), w)
  | .recovery d op, w, c => performRecovery T d op w c
  | _, _, _ => none

/-- What happens beside the programs: others publish events that release nothing, an event reaches a
device that is listening, a device loads the trade for another reason, or starts again. -/
def lockStepDrift (w : LockStepWorld ι) : LockStepChoice ι → Option (LockStepWorld ι)
  | .posts event => if w.isFresh event && !isRelease event then some (w.withEvent event) else none
  | .delivers d i =>
    match (w.device d).trade, w.published[i]? with
    | some trade, some event =>
      match applyToState T.host trade.state event with
      | .ok state => some (w.onto d { w.device d with trade := some { trade with state } })
      | .error _ => none
    | _, _ => none
  | .reloads d events mark => (loadedTrade T w d (.reads events mark)).map (w.afterLoad d)
  | .restarts d => some (w.onto d { stores := (w.device d).stores })
  | _ => none

abbrev lockStepPlatform : Platform where
  Op := LockStepOp ι
  Reply := LockStepOp.Reply
  World := LockStepWorld ι
  Choice := LockStepChoice ι
  perform := performLockStep T
  drift := lockStepDrift T

end ChamaEscrow
