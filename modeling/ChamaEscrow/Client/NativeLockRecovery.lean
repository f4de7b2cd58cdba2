import ChamaEscrow.Client.PendingNativeLocks
import ChamaEscrow.Client.RedemptionDrain
import ChamaEscrow.Client.WithheldShareStore
import ChamaEscrow.Engine.Replay
import ChamaEscrow.Trade.Lifecycle

/-!
# The recovery of native locks

`recoverPendingNativeLock` settles one entry of the journal against the replayed trade: notes that
the trade's LOCK committed belong to the escrow, notes that no LOCK can own go back to the wallet,
and all else is kept.  The drain and the bridge run it on entries that they have just read.

* `recovery_justified`: recovery redeems notes only when the replayed trade excludes their LOCK, and
  an entry leaves the journal only when its LOCK stands, its notes are credited or dead, or it was
  an intent that nothing came of.
* `recovery_unjustified`: it removes an intent for its age alone, and counts a LOCK as acknowledged
  that carries no mark.
-/

namespace ChamaEscrow

open Js Library

/-! ### What recovery reads -/

/-- How a LOCK stands with the relays. -/
inductive CustodyDurability
  | acknowledged
  | pending
  | expiredUnacked
  deriving DecidableEq

instance : ToString CustodyDurability where
  toString
    | .acknowledged => "acknowledged"
    | .pending => "pending"
    | .expiredUnacked => "expired-unacked"

/-- What `loadEscrow` returns: the replayed trade, and the mark that this device has put on its
LOCK. -/
structure LoadedTrade extends Replayed where
  custodyDurability : Option CustodyDurability := none

/-- `NativeLockRecoveryOutcome`. -/
inductive RecoveryOutcome
  | clearedCommitted
  | reabsorbed
  | clearedDeadNotes
  | clearedStaleIntent
  | kept
  deriving DecidableEq

def LoadedTrade.committed (trade : LoadedTrade) : Bool := trade.state.lock.notesHash.truthy

def LoadedTrade.commits (trade : LoadedTrade) (notesHash : String) : Bool :=
  trade.committed && trade.state.lock.notesHash.strictEq (.str notesHash)

def LoadedTrade.awaitsRelease (trade : LoadedTrade) : Bool :=
  trade.state.lock.withheld.any fun w => (truthyKey w.releaseEventId).isNone

def refusalCodes : List NoteCode :=
  [.rejected .orderNotFinalized, .cancelledBeforeLock, .withdrawnBeforeAccept]

def RejectedLock.commits (row : RejectedLock) (notesHash : String) : Bool :=
  match row.event.payload with
  | .lock p => p.notesHash.strictEq (.str notesHash)
  | _ => false

def RejectedLock.isOnchain (row : RejectedLock) : Bool :=
  match row.event.payload with
  | .lock p => p.onchain.isSome
  | _ => false

def RejectedLock.withholds (row : RejectedLock) : Bool :=
  match row.event.payload with
  | .lock p => p.withheldShares = some true
  | _ => false

def LoadedTrade.refuses (trade : LoadedTrade) (notesHash : String) : Bool :=
  (trade.rejectedLocks.any fun row =>
      row.code ∈ refusalCodes && row.commits notesHash && !row.isOnchain) &&
    !isSet trade.state.claim.claimedAt

def tradeStillLockable (state : EscrowState) (nowMs : JsNumber) : Bool :=
  state.status = .created &&
    !(0 < state.expiresAt && state.expiresAt < (nowMs.divBy 1000).floor)

def isNotesDeadError (e : MintError) : Bool :=
  e.code ∈ ["ALREADY_SPENT_UNCONFIRMED", "MINT_REISSUE_UNKNOWN"] ||
    ["already spent", "already redeemed", "already used", "double spend", "double-spend",
      "note already"].any (includes e.message.toLower)

/-! ### The calls of recovery -/

/-- What recovery calls; its accesses to the journal carry the entry that it was given. -/
inductive NativeLockOp
  | listPendingNativeLocks
  | getPendingNativeLock (escrowId : String)
  | now
  | currentFederationId
  | loadEscrow (escrowId : String)
  | hashNotes (oobNotes : String)
  | retire (escrowId notesHash : String)
  | redeemNotes (entry : PendingNativeLock)
  | redeemRejectedNotes (entry : PendingNativeLock)
  | clearStaleIntent (entry : PendingNativeLock)
  | bumpAttempts (entry : PendingNativeLock)
  | clearPendingNativeLock (entry : PendingNativeLock)
  | clearPendingNativeLockMatching (entry : PendingNativeLock)
  | downgradeReabsorbedToIntent (entry : PendingNativeLock) (now : JsNumber)
  | noteKept (entry : PendingNativeLock) (reason : String)

abbrev NativeLockOp.Reply : NativeLockOp → Type
  | listPendingNativeLocks => NativeLocks
  | getPendingNativeLock _ => Option PendingNativeLock
  | now => JsNumber
  | currentFederationId => Option String
  | loadEscrow _ => Except MintError (Option LoadedTrade)
  | hashNotes _ => Except MintError String
  | retire _ _ | clearStaleIntent _ => Except MintError Bool
  | _ => Except MintError Unit

abbrev nativeLockSignature : Signature := ⟨NativeLockOp, NativeLockOp.Reply⟩

abbrev NativeLockProg := Prog nativeLockSignature

abbrev Recovery := NativeLockProg (Except MintError RecoveryOutcome)

def nativeLockCall (op : NativeLockOp) : NativeLockProg op.Reply :=
  Prog.invoke (S := nativeLockSignature) op

/-! ### Recovery -/

def keep (entry : PendingNativeLock) (reason : String) : Recovery := do
  match ← nativeLockCall (.noteKept entry reason) with
  | .ok () => return .ok .kept
  | .error e => return .error e

/-- What an error within `reabsorb` leaves. -/
def reabsorbThrew (entry : PendingNativeLock) (requireConfirmedCredit : Bool) (e : MintError) :
    Recovery := do
  if isNotesDeadError e && !requireConfirmedCredit then
    match ← nativeLockCall (.clearPendingNativeLockMatching entry) with
    | .ok () => return .ok .clearedDeadNotes
    | .error e => return .error e
  else keep entry e.message

def settleReabsorbed (entry : PendingNativeLock) (trade : LoadedTrade)
    (requireConfirmedCredit : Bool) : Recovery := do
  let now ← nativeLockCall .now
  let settled ←
    if requireConfirmedCredit || !tradeStillLockable trade.state now then
      nativeLockCall (.clearPendingNativeLockMatching entry)
    else nativeLockCall (.downgradeReabsorbedToIntent entry now)
  match settled with
  | .ok () => return .ok .reabsorbed
  | .error e => reabsorbThrew entry requireConfirmedCredit e

/-- `reabsorb`: the attempt is counted outside the `try`. -/
def reabsorb (entry : PendingNativeLock) (trade : LoadedTrade) (requireConfirmedCredit : Bool) :
    Recovery := do
  match ← nativeLockCall (.bumpAttempts entry) with
  | .error e => return .error e
  | .ok () =>
    let redeemed ←
      if requireConfirmedCredit then nativeLockCall (.redeemRejectedNotes entry)
      else nativeLockCall (.redeemNotes entry)
    match redeemed with
    | .ok () => settleReabsorbed entry trade requireConfirmedCredit
    | .error e => reabsorbThrew entry requireConfirmedCredit e

def settleCommitted (entry : PendingNativeLock) (trade : LoadedTrade) : Recovery := do
  match trade.custodyDurability with
  | some .pending =>
    keep entry "LOCK is only locally applied (pending); awaiting relay custody"
  | some .expiredUnacked =>
    keep entry "LOCK is only locally applied (expired-unacked); awaiting relay custody"
  | _ =>
    if trade.awaitsRelease then
      keep entry "withheld-shares LOCK awaiting release; keeping the saved notes"
    else
      match ← nativeLockCall (.clearPendingNativeLock entry) with
      | .ok () => return .ok .clearedCommitted
      | .error e => return .error e

/-- An entry whose LOCK is neither accepted nor refused: only notes that no publishing was begun for
may go back. -/
def settleAbsent (entry : PendingNativeLock) (trade : LoadedTrade) : Recovery :=
  if entry.stage = .spent then reabsorb entry trade false
  else keep entry "publish-attempted LOCK absent from relays; waiting for positive evidence"

/-- An entry whose LOCK was refused: the shares that it held back are retired before its notes
return. -/
def settleRefused (entry : PendingNativeLock) (trade : LoadedTrade) (notesHash : String) :
    Recovery := do
  if trade.rejectedLocks.any fun row => row.commits notesHash && row.withholds then
    match ← nativeLockCall (.retire entry.escrowId notesHash) with
    | .ok true => reabsorb entry trade true
    | .ok false =>
      -- The note is made within the `try`.
      match ← nativeLockCall (.noteKept entry
        "could not mark the held-back shares retired; keeping the saved notes") with
      | .ok () => return .ok .kept
      | .error _ => keep entry "held-back share store unavailable; keeping the saved notes"
    | .error _ => keep entry "held-back share store unavailable; keeping the saved notes"
  else reabsorb entry trade true

def settleAgainst (entry : PendingNativeLock) (oobNotes : String) (trade : LoadedTrade) :
    Recovery := do
  if trade.committed then
    match ← nativeLockCall (.hashNotes oobNotes) with
    | .error e => keep entry ("hashNotes failed: " ++ e.message)
    | .ok notesHash =>
      if trade.commits notesHash then settleCommitted entry trade
      else reabsorb entry trade false
  else if trade.rejectedLocks.isEmpty then settleAbsent entry trade
  else
    match ← nativeLockCall (.hashNotes oobNotes) with
    | .error e => return .error e
    | .ok notesHash =>
      if trade.refuses notesHash then settleRefused entry trade notesHash
      else settleAbsent entry trade

/-- Whether the wallet is on another federation than the notes. -/
def isForeign (entry : PendingNativeLock) (currentFed : Option String) : Bool :=
  (truthyKey currentFed).isNone ||
    ((truthyKey entry.federationId).isSome && entry.federationId ≠ currentFed)

def settleIntent (entry : PendingNativeLock) (now : JsNumber) : Recovery := do
  if nativeLockIntentTtlMs < now - entry.createdAt then
    match ← nativeLockCall (.clearStaleIntent entry) with
    | .ok true => return .ok .clearedStaleIntent
    | .ok false => return .ok .kept
    | .error e => return .error e
  else return .ok .kept

def PendingNativeLock.spentNotes (entry : PendingNativeLock) : Option String :=
  if entry.stage = .intent then none else entry.notes?

def recoverPendingNativeLock (ignoreAttemptCap : Bool) (entry : PendingNativeLock) : Recovery := do
  let now ← nativeLockCall .now
  match entry.spentNotes with
  | none => settleIntent entry now
  | some oobNotes =>
    let currentFed ← nativeLockCall .currentFederationId
    if isForeign entry currentFed then
      keep entry ("federation mismatch (notes on " ++ entry.federationId.getD "unknown"
        ++ ", wallet on " ++ currentFed.getD "none" ++ ")")
    else if !ignoreAttemptCap && maxNativeLockDrainAttempts ≤ entry.attempts then return .ok .kept
    else
      match ← nativeLockCall (.loadEscrow entry.escrowId) with
      | .error e => keep entry ("loadEscrow failed: " ++ e.message)
      | .ok none => keep entry "trade state unknown (loadEscrow returned null)"
      | .ok (some trade) => settleAgainst entry oobNotes trade

/-! ### What the calls do -/

/-- The stores that recovery uses. -/
structure NativeLockWorld where
  locks : Stored NativeLocks := .missing
  withheld : Stored WithheldRecords := .missing

/-- What recovery does not control, and the calls of others. -/
inductive NativeLockChoice
  | storage (faults : Faults) (message : String)
  | checked (faults : CheckedFaults) (now : JsNumber)
  | clock (now : JsNumber)
  | federation (id : Option String)
  | loads (trade : Option LoadedTrade)
  | returns
  | throws (e : MintError)
  | calls (call : NativeLockCall) (faults : Faults)

def accessed {α : Type} (w : NativeLockWorld) (message : String)
    (result : Except NativeLockError α × Stored NativeLocks) :
    Except MintError α × NativeLockWorld :=
  (result.1.mapError fun _ => { message }, { w with locks := result.2 })

variable (sha256Hex : String → String)

/-- What a call of recovery does. -/
def performNativeLock : (op : NativeLockOp) → NativeLockWorld → NativeLockChoice →
    Option (op.Reply × NativeLockWorld)
  | .listPendingNativeLocks, w, .storage f _ => some (loadNativeLocks f w.locks, w)
  | .getPendingNativeLock escrowId, w, .storage f _ =>
    some ((loadNativeLocks f w.locks).get escrowId, w)
  | .now, w, .clock now => some (now, w)
  | .currentFederationId, w, .federation id => some (id, w)
  | .loadEscrow _, w, .loads trade => some (.ok trade, w)
  | .loadEscrow _, w, .throws e => some (.error e, w)
  | .hashNotes oobNotes, w, .returns => some (.ok (sha256Hex oobNotes), w)
  | .hashNotes _, w, .throws e => some (.error e, w)
  | .retire escrowId notesHash, w, .checked f now =>
    some (.ok (retireShares f now escrowId notesHash w.withheld).1,
      { w with withheld := (retireShares f now escrowId notesHash w.withheld).2 })
  | .retire _ _, w, .throws e => some (.error e, w)
  | .redeemNotes _, w, .returns => some (.ok (), w)
  | .redeemNotes _, w, .throws e => some (.error e, w)
  | .redeemRejectedNotes _, w, .returns => some (.ok (), w)
  | .redeemRejectedNotes _, w, .throws e => some (.error e, w)
  | .clearStaleIntent entry, w, .storage f message =>
    some (accessed w message (clearStaleIntent f entry w.locks))
  | .bumpAttempts entry, w, .storage f message =>
    some (accessed w message (bumpAttempts f entry w.locks))
  | .clearPendingNativeLock entry, w, .storage f message =>
    some (accessed w message (clearPendingNativeLock f entry.escrowId w.locks))
  | .clearPendingNativeLockMatching entry, w, .storage f message =>
    some (accessed w message (clearPendingNativeLockMatching f entry w.locks))
  | .downgradeReabsorbedToIntent entry now, w, .storage f message =>
    some (accessed w message (downgradeReabsorbedToIntent f now entry w.locks))
  | .noteKept entry reason, w, .storage f message =>
    some (accessed w message (noteKept f entry.escrowId reason w.locks))
  | _, _, _ => none

/-- The calls of others. -/
def nativeLockDrift (w : NativeLockWorld) : NativeLockChoice → Option NativeLockWorld
  | .calls call f => some { w with locks := call.run f w.locks }
  | _ => none

abbrev nativeLockPlatform : Platform where
  Op := NativeLockOp
  Reply := NativeLockOp.Reply
  World := NativeLockWorld
  Choice := NativeLockChoice
  perform := performNativeLock sha256Hex
  drift := nativeLockDrift

/-! ### What the calls write -/

/-- What a call of recovery can make of the entry in the slot of its own. -/
inductive JournalWrite : NativeLockOp → PendingNativeLock → PendingNativeLock →
    Option PendingNativeLock → Prop
  | clearStaleIntent {entry live : PendingNativeLock} (same : isSameIntent entry live = true) :
    JournalWrite (.clearStaleIntent entry) entry live none
  | bumpAttempts {entry live : PendingNativeLock} (same : live.oobNotes = entry.oobNotes) :
    JournalWrite (.bumpAttempts entry) entry live (some { live with attempts := live.attempts + 1 })
  | clear (entry live : PendingNativeLock) :
    JournalWrite (.clearPendingNativeLock entry) entry live none
  | clearMatching {entry live : PendingNativeLock} (same : live.oobNotes = entry.oobNotes) :
    JournalWrite (.clearPendingNativeLockMatching entry) entry live none
  | downgrade {entry live : PendingNativeLock} {now : JsNumber}
    (same : live.oobNotes = entry.oobNotes) :
    JournalWrite (.downgradeReabsorbedToIntent entry now) entry live (some (downgraded now entry))
  | noteKept (entry live : PendingNativeLock) (reason : String) :
    JournalWrite (.noteKept entry reason) entry live
      (some { live with lastError := some (clipped reason) })

variable {sha256Hex} {w w' : NativeLockWorld} {c : NativeLockChoice} {op : NativeLockOp}
  {r : op.Reply}

variable {g : PendingNativeLock → SlotEdit}

theorem journalWrite_edit {entry : PendingNativeLock} {op : NativeLockOp} {f : Faults}
    {s s' : Stored NativeLocks}
    (hs' : s' = (updateNativeLocks f s (editNativeLock entry.escrowId g)).2)
    (hg : ∀ live next, (g live).result = some next → JournalWrite op entry live next)
    (slot : String) :
    (nativeLocks s').get slot = (nativeLocks s).get slot ∨
      ∃ entry live, slot = entry.escrowId ∧ (nativeLocks s).get slot = some live ∧
        JournalWrite op entry live ((nativeLocks s').get slot) := by
  subst hs'
  rcases get_editNativeLock f s entry.escrowId g slot with hsame | ⟨rfl, live, hlive, hresult⟩
  · exact Or.inl hsame
  · exact Or.inr ⟨entry, live, rfl, hlive, hg live _ hresult⟩

theorem journal_perform (h : performNativeLock sha256Hex op w c = some (r, w')) (slot : String) :
    (nativeLocks w'.locks).get slot = (nativeLocks w.locks).get slot ∨
      ∃ entry live, slot = entry.escrowId ∧ (nativeLocks w.locks).get slot = some live ∧
        JournalWrite op entry live ((nativeLocks w'.locks).get slot) := by
  cases op with
  | clearStaleIntent entry =>
    cases c with
    | storage f message =>
      obtain ⟨-, rfl⟩ := Prod.mk.inj (Option.some.inj h)
      refine journalWrite_edit rfl (fun live next hnext => ?_) slot
      split_ifs at hnext with hsame
      · cases hnext
        exact .clearStaleIntent hsame
      · cases hnext
    | _ => cases h
  | bumpAttempts entry =>
    cases c with
    | storage f message =>
      obtain ⟨-, rfl⟩ := Prod.mk.inj (Option.some.inj h)
      refine journalWrite_edit rfl (fun live next hnext => ?_) slot
      split_ifs at hnext with hsame
      · cases hnext
        exact .bumpAttempts hsame
      · cases hnext
    | _ => cases h
  | clearPendingNativeLock entry =>
    cases c with
    | storage f message =>
      obtain ⟨-, rfl⟩ := Prod.mk.inj (Option.some.inj h)
      refine journalWrite_edit rfl (fun live next hnext => ?_) slot
      cases hnext
      exact .clear entry live
    | _ => cases h
  | clearPendingNativeLockMatching entry =>
    cases c with
    | storage f message =>
      obtain ⟨-, rfl⟩ := Prod.mk.inj (Option.some.inj h)
      refine journalWrite_edit rfl (fun live next hnext => ?_) slot
      split_ifs at hnext with hsame
      · cases hnext
        exact .clearMatching hsame
      · cases hnext
    | _ => cases h
  | downgradeReabsorbedToIntent entry now =>
    cases c with
    | storage f message =>
      obtain ⟨-, rfl⟩ := Prod.mk.inj (Option.some.inj h)
      refine journalWrite_edit rfl (fun live next hnext => ?_) slot
      split_ifs at hnext with hsame
      · cases hnext
        exact .downgrade hsame
      · cases hnext
    | _ => cases h
  | noteKept entry reason =>
    cases c with
    | storage f message =>
      obtain ⟨-, rfl⟩ := Prod.mk.inj (Option.some.inj h)
      refine journalWrite_edit rfl (fun live next hnext => ?_) slot
      cases hnext
      exact .noteKept entry live reason
    | _ => cases h
  | _ => cases c <;> cases h <;> exact Or.inl rfl

/-! ### What recovery knows when it acts -/

section Evidence

variable (sha256Hex : String → String) (entry : PendingNativeLock)
  (calls : Calls nativeLockSignature)

def Loaded (trade : LoadedTrade) : Prop :=
  ⟨.loadEscrow entry.escrowId, .ok (some trade)⟩ ∈ calls

def notesHashOf : String := sha256Hex (entry.oobNotes.getD "")

/-- The trade shows that no LOCK owns the notes: another one was committed, theirs was refused, or
its publishing was never begun. -/
def Excluded (trade : LoadedTrade) : Prop :=
  (trade.committed = true ∧ trade.commits (notesHashOf sha256Hex entry) = false) ∨
    (trade.committed = false ∧ trade.refuses (notesHashOf sha256Hex entry) = true) ∨
    (trade.committed = false ∧ entry.stage = .spent)

/-- The LOCK of the notes stands: it is committed, counts as acknowledged, and waits for no
RELEASE. -/
def Stands (isAcknowledged : Option CustodyDurability → Prop) : Prop :=
  ∃ trade, Loaded entry calls trade ∧ trade.commits (notesHashOf sha256Hex entry) = true ∧
    isAcknowledged trade.custodyDurability ∧ trade.awaitsRelease = false

def CreditedBack : Prop :=
  ⟨.redeemNotes entry, .ok ()⟩ ∈ calls ∨ ⟨.redeemRejectedNotes entry, .ok ()⟩ ∈ calls

/-- The mint has rejected the notes as consumed. -/
def ProvenDead : Prop :=
  ∃ e, isNotesDeadError e = true ∧ ⟨.redeemNotes entry, .error e⟩ ∈ calls

/-- The entry was an intent, or held no notes, and was too old. -/
def IsStale : Prop :=
  entry.spentNotes = none ∧ ∃ now, ⟨.now, now⟩ ∈ calls ∧
      nativeLockIntentTtlMs < now - entry.createdAt

/-- No mark says that the LOCK is not acknowledged. -/
def isUnmarked (durability : Option CustodyDurability) : Prop :=
  durability ≠ some .pending ∧ durability ≠ some .expiredUnacked

/-- What recovery knows at each of its calls. -/
def Justified : NativeLockOp → Prop
  | .redeemNotes e | .redeemRejectedNotes e =>
    e = entry ∧ ∃ trade, Loaded entry calls trade ∧ Excluded sha256Hex entry trade
  | .clearPendingNativeLock e => e = entry ∧ Stands sha256Hex entry calls isUnmarked
  | .clearPendingNativeLockMatching e | .downgradeReabsorbedToIntent e _ =>
    e = entry ∧ (CreditedBack entry calls ∨ ProvenDead entry calls)
  | .clearStaleIntent e => e = entry ∧ IsStale entry calls
  | .bumpAttempts e | .noteKept e _ => e = entry
  | _ => True

end Evidence

section Programs

variable {entry : PendingNativeLock} {calls : Calls nativeLockSignature} {trade : LoadedTrade}

abbrev ActsJustified (sha256Hex : String → String) (entry : PendingNativeLock) (p : Recovery)
    (calls : Calls nativeLockSignature) : Prop :=
  Along (P := nativeLockPlatform sha256Hex) (Justified sha256Hex entry) p calls

theorem Loaded.cons (h : Loaded entry calls trade) (e : Σ op : NativeLockOp, op.Reply) :
    Loaded entry (e :: calls) trade :=
  List.mem_cons_of_mem e h

theorem CreditedBack.cons (h : CreditedBack entry calls) (e : Σ op : NativeLockOp, op.Reply) :
    CreditedBack entry (e :: calls) :=
  h.imp (List.mem_cons_of_mem e) (List.mem_cons_of_mem e)

theorem notesHashOf_eq {oobNotes : String} (h : entry.spentNotes = some oobNotes) :
    notesHashOf sha256Hex entry = sha256Hex oobNotes := by
  unfold PendingNativeLock.spentNotes PendingNativeLock.notes? at h
  split_ifs at h
  have hnotes := (Option.filter_eq_some_iff.mp h).1
  unfold notesHashOf
  rw [hnotes]
  rfl

theorem justified_keep {reason : String} : ActsJustified sha256Hex entry
    (keep entry reason) calls := by
  refine along_invoke rfl fun w c r w' _ => ?_
  cases r <;> trivial

variable {requireConfirmedCredit : Bool}

theorem justified_reabsorbThrew {e : MintError}
    (hdead : isNotesDeadError e = true → requireConfirmedCredit = false →
      CreditedBack entry calls ∨ ProvenDead entry calls) :
    ActsJustified sha256Hex entry (reabsorbThrew entry requireConfirmedCredit e) calls := by
  unfold reabsorbThrew
  split_ifs with h
  · rw [Bool.and_eq_true, Bool.not_eq_true'] at h
    refine along_invoke ⟨rfl, hdead h.1 h.2⟩ fun w c r w' _ => ?_
    cases r <;> trivial
  · exact justified_keep

theorem justified_settleReabsorbed (h : CreditedBack entry calls) :
    ActsJustified sha256Hex entry (settleReabsorbed entry trade requireConfirmedCredit) calls := by
  refine along_invoke trivial fun w c now w' _ => ?_
  have hnow := h.cons ⟨.now, now⟩
  dsimp only
  split_ifs
  · refine along_invoke ⟨rfl, Or.inl hnow⟩ fun w c r w' _ => ?_
    cases r with
    | ok => trivial
    | error e => exact justified_reabsorbThrew fun _ _ => Or.inl (hnow.cons _)
  · refine along_invoke ⟨rfl, Or.inl hnow⟩ fun w c r w' _ => ?_
    cases r with
    | ok => trivial
    | error e => exact justified_reabsorbThrew fun _ _ => Or.inl (hnow.cons _)

/-- Notes that no LOCK owns may be redeemed. -/
theorem justified_reabsorb (hloaded : Loaded entry calls trade)
    (hexcluded : Excluded sha256Hex entry trade) :
    ActsJustified sha256Hex entry (reabsorb entry trade requireConfirmedCredit) calls := by
  refine along_invoke rfl fun w c r w' _ => ?_
  cases r with
  | error e => trivial
  | ok =>
    have hknown := hloaded.cons ⟨.bumpAttempts entry, .ok ()⟩
    dsimp only
    split_ifs with hconfirmed
    · refine along_invoke ⟨rfl, trade, hknown, hexcluded⟩ fun w c r w' _ => ?_
      cases r with
      | ok => exact justified_settleReabsorbed (Or.inr List.mem_cons_self)
      | error e =>
        refine justified_reabsorbThrew fun _ hunconfirmed => ?_
        rw [hconfirmed] at hunconfirmed
        cases hunconfirmed
    · refine along_invoke ⟨rfl, trade, hknown, hexcluded⟩ fun w c r w' _ => ?_
      cases r with
      | ok => exact justified_settleReabsorbed (Or.inl List.mem_cons_self)
      | error e =>
        exact justified_reabsorbThrew fun hdead _ => Or.inr ⟨e, hdead, List.mem_cons_self⟩

theorem justified_settleCommitted (hloaded : Loaded entry calls trade)
    (hcommits : trade.commits (notesHashOf sha256Hex entry) = true) :
    ActsJustified sha256Hex entry (settleCommitted entry trade) calls := by
  unfold settleCommitted
  split
  · exact justified_keep
  · exact justified_keep
  · rename_i hpending hexpired
    split_ifs with hawaits
    · exact justified_keep
    · refine along_invoke ⟨rfl, trade, hloaded, hcommits, ⟨hpending, hexpired⟩,
        ?_⟩ fun w c r w' _ => ?_
      · exact Bool.eq_false_iff.mpr hawaits
      · cases r <;> trivial

theorem justified_settleAbsent (hloaded : Loaded entry calls trade)
    (hcommitted : trade.committed = false) :
    ActsJustified sha256Hex entry (settleAbsent entry trade) calls := by
  unfold settleAbsent
  split_ifs with hspent
  · exact justified_reabsorb hloaded (Or.inr (Or.inr ⟨hcommitted, hspent⟩))
  · exact justified_keep

theorem justified_settleRefused (hloaded : Loaded entry calls trade)
    (hcommitted : trade.committed = false)
    (hrefuses : trade.refuses (notesHashOf sha256Hex entry) = true) {notesHash : String} :
    ActsJustified sha256Hex entry (settleRefused entry trade notesHash) calls := by
  have hexcluded : Excluded sha256Hex entry trade := Or.inr (Or.inl ⟨hcommitted, hrefuses⟩)
  unfold settleRefused
  split_ifs
  · refine along_invoke trivial fun w c r w' _ => ?_
    match r with
    | .ok true => exact justified_reabsorb (hloaded.cons _) hexcluded
    | .ok false =>
      refine along_invoke rfl fun w c r w' _ => ?_
      cases r with
      | ok => trivial
      | error e => exact justified_keep
    | .error e => exact justified_keep
  · exact justified_reabsorb hloaded hexcluded

theorem hashNotes_reply {oobNotes notesHash : String}
    (h : performNativeLock sha256Hex (.hashNotes oobNotes) w c = some (.ok notesHash, w')) :
    notesHash = sha256Hex oobNotes := by
  cases c <;> cases h
  rfl

theorem justified_settleAgainst (hloaded : Loaded entry calls trade) {oobNotes : String}
    (hnotes : entry.spentNotes = some oobNotes) :
    ActsJustified sha256Hex entry (settleAgainst entry oobNotes trade) calls := by
  have hhash : notesHashOf sha256Hex entry = sha256Hex oobNotes := notesHashOf_eq hnotes
  unfold settleAgainst
  split_ifs with hcommitted hrejected
  · refine along_invoke trivial fun w c r w' hr => ?_
    cases r with
    | error e => exact justified_keep
    | ok notesHash =>
      obtain rfl := hashNotes_reply hr
      dsimp only
      split_ifs with hcommits
      · exact justified_settleCommitted (hloaded.cons _) (hhash ▸ hcommits)
      · refine justified_reabsorb (hloaded.cons _) (Or.inl ⟨hcommitted, ?_⟩)
        rw [hhash]
        exact Bool.eq_false_iff.mpr hcommits
  · exact justified_settleAbsent hloaded (Bool.eq_false_iff.mpr hcommitted)
  · refine along_invoke trivial fun w c r w' hr => ?_
    cases r with
    | error e => trivial
    | ok notesHash =>
      obtain rfl := hashNotes_reply hr
      dsimp only
      split_ifs with hrefuses
      · exact justified_settleRefused (hloaded.cons _) (Bool.eq_false_iff.mpr hcommitted)
          (hhash ▸ hrefuses)
      · exact justified_settleAbsent (hloaded.cons _) (Bool.eq_false_iff.mpr hcommitted)

theorem justified_recover {ignoreAttemptCap : Bool} :
    ActsJustified sha256Hex entry (recoverPendingNativeLock ignoreAttemptCap entry) calls := by
  refine along_invoke trivial fun w c now w' _ => ?_
  dsimp only
  split
  · rename_i hnone
    unfold settleIntent
    split_ifs with hold
    · refine along_invoke ⟨rfl, hnone, now, List.mem_cons_self, hold⟩ fun w c r w' _ => ?_
      match r with
      | .ok true => trivial
      | .ok false => trivial
      | .error e => trivial
    · trivial
  · rename_i oobNotes hnotes
    refine along_invoke trivial fun w c currentFed w' _ => ?_
    dsimp only
    split_ifs
    · exact justified_keep
    · trivial
    · refine along_invoke trivial fun w c r w' _ => ?_
      match r with
      | .error e => exact justified_keep
      | .ok none => exact justified_keep
      | .ok (some trade) => exact justified_settleAgainst List.mem_cons_self hnotes

end Programs

/-! ### What recovery does -/

def HoldsNotes (entry : PendingNativeLock) (w : NativeLockWorld) : Prop :=
  ∃ live, (nativeLocks w.locks).get entry.escrowId = some live ∧ live.oobNotes = entry.oobNotes

theorem removal_justified {entry : PendingNativeLock} {calls : Calls nativeLockSignature}
    (hjustified : Justified sha256Hex entry calls op)
    (h : performNativeLock sha256Hex op w c = some (r, w')) (hbefore : HoldsNotes entry w)
    (hafter : ¬ HoldsNotes entry w') :
    Stands sha256Hex entry calls isUnmarked ∨ CreditedBack entry calls ∨ ProvenDead entry calls ∨
      IsStale entry calls := by
  obtain ⟨live, hlive, hnotes⟩ := hbefore
  rcases journal_perform h entry.escrowId with hsame | ⟨e, live', hslot, hlive', hwrite⟩
  · exact absurd ⟨live, hsame.trans hlive, hnotes⟩ hafter
  · obtain rfl := Option.some.inj (hlive.symm.trans hlive')
    generalize hnext : (nativeLocks w'.locks).get entry.escrowId = next at hwrite
    cases hwrite with
    | clearStaleIntent => exact Or.inr (Or.inr (Or.inr hjustified.2))
    | bumpAttempts => exact absurd ⟨_, hnext, hnotes⟩ hafter
    | clear => exact Or.inl hjustified.2
    | clearMatching => exact Or.inr (hjustified.2.imp_right Or.inl)
    | downgrade => exact Or.inr (hjustified.2.imp_right Or.inl)
    | noteKept => exact absurd ⟨_, hnext, hnotes⟩ hafter

/-- Recovery of any entry, under any interference: it redeems the notes only when the replayed trade
excludes their LOCK, never when they are committed, and after an attempt to publish only when
another LOCK is committed or theirs was refused; and the entry leaves the journal only when its LOCK
stands, its notes are credited or dead, or it was an intent that is too old. -/
theorem recovery_justified (sha256Hex : String → String) {ignoreAttemptCap : Bool}
    {entry : PendingNativeLock} {calls : Calls nativeLockSignature} {op : NativeLockOp}
    {k : op.Reply → Recovery}
    (course : Course (P := nativeLockPlatform sha256Hex)
      (recoverPendingNativeLock ignoreAttemptCap entry) calls (.call op k)) :
    (∀ e, op = .redeemNotes e ∨ op = .redeemRejectedNotes e → e = entry ∧
      ∃ trade, Loaded entry calls trade ∧ Excluded sha256Hex entry trade ∧
        trade.commits (notesHashOf sha256Hex entry) = false ∧
        (entry.stage = .publishAttempted → trade.committed = true ∨
          trade.refuses (notesHashOf sha256Hex entry) = true)) ∧
    ∀ w c r w', performNativeLock sha256Hex op w c = some (r, w') → HoldsNotes entry w →
      ¬ HoldsNotes entry w' → Stands sha256Hex entry calls isUnmarked ∨ CreditedBack entry calls ∨
        ProvenDead entry calls ∨ IsStale entry calls := by
  have hjustified : Justified sha256Hex entry calls op := (course.along justified_recover).1
  refine ⟨fun e he => ?_, fun w c r w' h => removal_justified hjustified h⟩
  have hredeems : e = entry ∧ ∃ trade, Loaded entry calls trade ∧
      Excluded sha256Hex entry trade := by
    rcases he with rfl | rfl
    · exact hjustified
    · exact hjustified
  obtain ⟨rfl, trade, hloaded, hexcluded⟩ := hredeems
  refine ⟨rfl, trade, hloaded, hexcluded, ?_, fun hstage => ?_⟩
  · rcases hexcluded with ⟨-, hother⟩ | ⟨hnone, -⟩ | ⟨hnone, -⟩
    · exact hother
    · unfold LoadedTrade.commits
      rw [hnone, Bool.false_and]
    · unfold LoadedTrade.commits
      rw [hnone, Bool.false_and]
  · rcases hexcluded with ⟨hcommitted, -⟩ | ⟨-, hrefused⟩ | ⟨-, hspent⟩
    · exact Or.inl hcommitted
    · exact Or.inr hrefused
    · rw [hstage] at hspent
      cases hspent

/-! ### Sample recoveries -/

def sampleIntent : PendingNativeLock :=
  { escrowId := "e", stage := .intent, amountMsats := 1000, federationId := some "f", createdAt := 0
    attempts := 0 }

def sampleAttempted : PendingNativeLock :=
  { sampleIntent with stage := .publishAttempted, oobNotes := some "a" }

def sampleLocked : Option LoadedTrade :=
  (liveTrade silentHost sampleCreate [sampleJoin, sampleLock]).map fun state =>
    { state, replayNotes := [], rejectedLocks := [] }

def inTurn (choices : List NativeLockChoice) : List (NativeLockWorld × NativeLockChoice) :=
  choices.map fun c => ({}, c)

def nextCall : Recovery → Option NativeLockOp
  | .call op _ => some op
  | .ret _ => none

theorem nextCall_eq_some {q : Recovery} (h : nextCall q = some op) : ∃ k, q = .call op k := by
  cases q with
  | ret => cases h
  | call op' k =>
    obtain rfl := Option.some.inj h
    exact ⟨k, rfl⟩

/-- Notes whose hash is not the committed one are redeemed, since the trade shows another LOCK. -/
theorem recovery_justified_replaced : ∃ calls trade, Loaded sampleAttempted calls trade ∧
    trade.commits "h" = false ∧ (trade.committed = true ∨ trade.refuses "h" = true) := by
  have hcourse : ∃ calls q, Course (P := nativeLockPlatform fun _ => "h")
      (recoverPendingNativeLock false sampleAttempted) calls q ∧
      (nextCall q).any (fun op => match op with
        | .redeemNotes e => e = sampleAttempted
        | _ => false) = true :=
    Course.exists_of_follow (inTurn [.clock 0, .federation (some "f"), .loads sampleLocked,
      .returns, .storage .none ""]) (by decide +kernel)
  obtain ⟨calls, q, course, htest⟩ := hcourse
  obtain ⟨op, hop, htest⟩ := (Option.any_eq_true _ _).mp htest
  obtain ⟨k, rfl⟩ := nextCall_eq_some hop
  cases op with
  | redeemNotes e =>
    obtain ⟨-, trade, hloaded, -, hother, hexcluded⟩ :=
      (recovery_justified (fun _ => "h") course).1 e (Or.inl rfl)
    exact ⟨calls, trade, hloaded, hother, hexcluded rfl⟩
  | _ => cases htest

def showsNothing (calls : Calls nativeLockSignature) : Bool :=
  calls.all fun call => match call with
    | ⟨.loadEscrow _, .ok (some trade)⟩ => trade.custodyDurability ≠ some .acknowledged
    | ⟨.redeemNotes _, _⟩ | ⟨.redeemRejectedNotes _, _⟩ => false
    | _ => true

theorem unsettled_of_showsNothing {entry : PendingNativeLock} {calls : Calls nativeLockSignature}
    (h : showsNothing calls = true) :
    ¬ (Stands sha256Hex entry calls (· = some .acknowledged) ∨ CreditedBack entry calls ∨
      ProvenDead entry calls) := by
  have hall := List.all_eq_true.mp h
  rintro (⟨trade, hloaded, -, hacknowledged, -⟩ | (hredeemed | hredeemed) | ⟨e, -, hdead⟩)
  · have := of_decide_eq_true (hall _ hloaded)
    exact this hacknowledged
  · cases hall _ hredeemed
  · cases hall _ hredeemed
  · cases hall _ hdead

def journalOf (entry : PendingNativeLock) : NativeLockWorld :=
  { locks := .value (OrderedMap.empty.set entry.escrowId entry) }

theorem journalOf_holds (entry : PendingNativeLock) : HoldsNotes entry (journalOf entry) := by
  refine ⟨entry, ?_, rfl⟩
  change (OrderedMap.empty.set entry.escrowId entry).get entry.escrowId = some entry
  rw [OrderedMap.get_set, if_pos rfl]

theorem journalOf_removed {entry : PendingNativeLock} (hg : g entry = .remove) {w : NativeLockWorld}
    (hw : w.locks = (updateNativeLocks .none (journalOf entry).locks
      (editNativeLock entry.escrowId g)).2) : ¬ HoldsNotes entry w := by
  have hedit : editNativeLock entry.escrowId g (OrderedMap.empty.set entry.escrowId entry) =
      some ((OrderedMap.empty.set entry.escrowId entry).erase entry.escrowId) := by
    unfold editNativeLock
    rw [OrderedMap.get_set, if_pos rfl, Option.bind_some, hg]
  have hlocks : w.locks =
      .value ((OrderedMap.empty.set entry.escrowId entry).erase entry.escrowId) := by
    have hread : loadNativeLocks .none (journalOf entry).locks =
        OrderedMap.empty.set entry.escrowId entry := rfl
    rw [hw]
    simp only [updateNativeLocks, hread, hedit]
    rfl
  rintro ⟨live, hlive, -⟩
  rw [hlocks] at hlive
  change ((OrderedMap.empty.set entry.escrowId entry).erase entry.escrowId).get entry.escrowId =
    some live at hlive
  rw [OrderedMap.get_erase, if_pos rfl] at hlive
  cases hlive

/-- Recovery takes an entry out of the journal with notes that no acknowledged LOCK owns, that are
not credited back and that the mint does not call dead. -/
def DropsUnjustified (entry : PendingNativeLock) : Prop :=
  ∃ (calls : Calls nativeLockSignature) (op : NativeLockOp) (k : op.Reply → Recovery)
    (w : NativeLockWorld) (c : NativeLockChoice) (r : op.Reply) (w' : NativeLockWorld),
    Course (P := nativeLockPlatform fun _ => "notes") (recoverPendingNativeLock false entry) calls
      (.call op k) ∧
    performNativeLock (fun _ => "notes") op w c = some (r, w') ∧ HoldsNotes entry w ∧
    ¬ HoldsNotes entry w' ∧
    ¬ (Stands (fun _ => "notes") entry calls (· = some .acknowledged) ∨ CreditedBack entry calls ∨
      ProvenDead entry calls)

/-- An intent is removed for its age alone, and the entry of a LOCK that carries no mark as if
relays had acknowledged it. -/
theorem recovery_unjustified : DropsUnjustified sampleIntent ∧ DropsUnjustified sampleAttempted := by
  constructor
  · have hcourse : ∃ calls q, Course (P := nativeLockPlatform fun _ => "notes")
        (recoverPendingNativeLock false sampleIntent) calls q ∧
        ((nextCall q).any (fun op => match op with
          | .clearStaleIntent e => e = sampleIntent
          | _ => false) && showsNothing calls) = true :=
      Course.exists_of_follow (inTurn [.clock 172800001]) (by decide +kernel)
    obtain ⟨calls, q, course, htest⟩ := hcourse
    obtain ⟨hnext, hnothing⟩ := Bool.and_eq_true_iff.mp htest
    obtain ⟨op, hop, hstale⟩ := (Option.any_eq_true _ _).mp hnext
    obtain ⟨k, rfl⟩ := nextCall_eq_some hop
    cases op with
    | clearStaleIntent e =>
      obtain rfl := of_decide_eq_true hstale
      have hremoved : ¬ HoldsNotes sampleIntent (accessed (journalOf sampleIntent) ""
          (clearStaleIntent .none sampleIntent (journalOf sampleIntent).locks)).2 :=
        journalOf_removed (if_pos (by decide +kernel)) rfl
      exact ⟨calls, .clearStaleIntent sampleIntent, k, journalOf sampleIntent, .storage .none "", _,
          _, course, rfl,
        journalOf_holds _, hremoved, unsettled_of_showsNothing hnothing⟩
    | _ => cases hstale
  · have hcourse : ∃ calls q, Course (P := nativeLockPlatform fun _ => "notes")
        (recoverPendingNativeLock false sampleAttempted) calls q ∧
        ((nextCall q).any (fun op => match op with
          | .clearPendingNativeLock e => e = sampleAttempted
          | _ => false) && showsNothing calls) = true :=
      Course.exists_of_follow (inTurn [.clock 0, .federation (some "f"), .loads sampleLocked,
        .returns]) (by decide +kernel)
    obtain ⟨calls, q, course, htest⟩ := hcourse
    obtain ⟨hnext, hnothing⟩ := Bool.and_eq_true_iff.mp htest
    obtain ⟨op, hop, hclear⟩ := (Option.any_eq_true _ _).mp hnext
    obtain ⟨k, rfl⟩ := nextCall_eq_some hop
    cases op with
    | clearPendingNativeLock e =>
      obtain rfl := of_decide_eq_true hclear
      have hremoved : ¬ HoldsNotes sampleAttempted (accessed (journalOf sampleAttempted) ""
          (clearPendingNativeLock .none "e" (journalOf sampleAttempted).locks)).2 :=
        journalOf_removed (g := fun _ => .remove) rfl rfl
      exact ⟨calls, .clearPendingNativeLock sampleAttempted, k, journalOf sampleAttempted,
          .storage .none "", _, _, course, rfl,
        journalOf_holds _, hremoved, unsettled_of_showsNothing hnothing⟩
    | _ => cases hclear

end ChamaEscrow
