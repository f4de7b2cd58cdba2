import ChamaEscrow.Client.RawEvents
import ChamaEscrow.Library.Program

/-!
# The seed manager

The wallet seed of an identity and its backups on relays (`seed-manager.ts`), for one pubkey.  What
is read from events is pure: which copy a restoring device opens (`restoreOrder`) and what a check
of the backups says (`verdict`).  The functions that wait for relays, for the signer or for the
creation lock are programs over the operations of `SeedOp`; the platform keeps what the tabs of one
browser share, the cache of each tab, and what the relays hold.

A decryption is a fixed function of the ciphertext, so that the retries of a failed one and the memo
of a successful one have no counterpart here.
-/

namespace ChamaEscrow

open Js Library

namespace Seed

/-! ### The signer -/

/-- The outcome of a decryption; a refusal is a `SignerApprovalError`. -/
inductive Decryption
  | opens (plain : String)
  | fails
  | refused

/-- The identity with its signer, and what the seed manager takes from libraries: JSON, signatures,
and the recovery code's cipher.  An event's id is a hash of what is signed. -/
structure SeedHost where
  pubkey : String
  parseJson : String → Option JsValue
  unwrapSeedBackup : String → String → Option String
  verifySignature : RawEvent → Bool
  verify_inj : ∀ a b, verifySignature a = true → verifySignature b = true → a.id = b.id → a = b
  requiresUserAction : Bool := false
  nip44Decrypt : String → Decryption
  nip04Decrypt : Option (String → Decryption) := none
  windowNip04 : Option (String → Decryption) := none

/-- What a call of the seed manager throws. -/
inductive SeedError
  | needsRecoveryCode
  | needsRestoreConfirmation
  | relaysUnready
  | undecryptable
  | unreachable
  | missing
  | locked
  | approval
  | signer
  | publish
  deriving DecidableEq

/-! ### Backups -/

def chamaSeedKind : ℕ := 30078

def chamaSeedDTag : String := "chama-fedimint-seed-v1"

def seedV2DPrefix : String := "chama-wallet-seed-v2:"

def seedV2BrowserDTag : String := "chama-wallet-seed-v2:browser"

/-- The values of the `d` tags of an event. -/
def dValues (e : RawEvent) : List String :=
  e.event.tags.filterMap fun tag => if tag.head? = some "d" then tag[1]? else none

variable (host : SeedHost)

def isChamaSeedEvent (e : RawEvent) : Bool :=
  e.kind = chamaSeedKind && e.event.pubkey = host.pubkey && (dValues e).any (· = chamaSeedDTag)

def isProtectedSeedEvent (e : RawEvent) : Bool :=
  e.kind = chamaSeedKind && e.event.pubkey = host.pubkey &&
  (dValues e).any (fun d => seedV2DPrefix.toList.isPrefixOf d.toList) && host.verifySignature e

def isBrowserProtectedSeedEvent (e : RawEvent) : Bool := (dValues e).any (· = seedV2BrowserDTag)

def isSeedBackup (e : RawEvent) : Bool := isChamaSeedEvent host e || isProtectedSeedEvent host e

def isRetiredSeed (e : RawEvent) : Bool :=
  match host.nip44Decrypt e.content with
  | .opens plain => (host.parseJson plain).any fun v => (v.field "retired").bool? = some true
  | _ => false

/-! ### Words -/

/-- `text.trim().split(/\s+/)`. -/
def splitWords (text : String) : List String :=
  (((trim text).toList.splitOnP Char.isWhitespace).filter (· ≠ [])).map String.ofList

/-- `words.join(" ")`. -/
def joinWords (words : List String) : String := String.intercalate " " words

def looksLikeMnemonic (text : String) : Bool :=
  12 ≤ (splitWords text).length && (splitWords text).length ≤ 24 &&
  (splitWords text).all fun word => word.toList.all fun c => 'a' ≤ c && c ≤ 'z'

def mnemonic? (text : String) : Option String := if looksLikeMnemonic text then some text else none

/-- The last resorts of `tryDecryptSeedEvent`: NIP-04 of the page, and a content in the clear. -/
def tryLegacyDecrypt (e : RawEvent) : Except SeedError (Option String) :=
  match (host.windowNip04.map (· e.content) : Option Decryption) with
  | some (.opens plain) => .ok ((mnemonic? plain).or (mnemonic? (trim e.content)))
  | some _ => if host.requiresUserAction then .error .approval else .ok (mnemonic? (trim e.content))
  | none => .ok (mnemonic? (trim e.content))

/-- `tryDecryptSeedEvent`, with or without the signer's NIP-04. -/
def tryDecryptSeedEvent (nip04Decrypt : Option (String → Decryption)) (e : RawEvent) :
    Except SeedError (Option String) :=
  if host.requiresUserAction && textIncludes e.content "?iv=" then
    match (nip04Decrypt.map (· e.content) : Option Decryption) with
    | some (.opens plain) => .ok (mnemonic? plain)
    | some .fails => .error .signer
    | some .refused | none => .error .approval
  else
    match host.nip44Decrypt e.content with
    | .opens plain =>
      if looksLikeMnemonic plain then .ok (some plain)
      else if host.requiresUserAction then .ok none
      else tryLegacyDecrypt host e
    | .refused => .error .approval
    | .fails => tryLegacyDecrypt host e

def firstMnemonic (nip04Decrypt : Option (String → Decryption)) :
    List RawEvent → Except SeedError (Option (List String × RawEvent))
  | [] => .ok none
  | e :: rest =>
    match tryDecryptSeedEvent host nip04Decrypt e with
    | .error err => .error err
    | .ok (some plain) =>
      if 12 ≤ (splitWords plain).length ∧ (splitWords plain).length ≤ 24 then
        .ok (some (splitWords plain, e))
      else firstMnemonic nip04Decrypt rest
    | .ok none => firstMnemonic nip04Decrypt rest

/-- `recoverSeedWordsFromEvents`: the newest copy that opens. -/
def recoverSeedWordsFromEvents (nip04Decrypt : Option (String → Decryption))
    (events : List RawEvent) : Except SeedError (Option (List String × RawEvent)) :=
  firstMnemonic host nip04Decrypt
    (events.insertionSort fun a b => (!decide (a.createdAt < b.createdAt)) = true)

/-! ### The restore order -/

/-- The order of two copies: by time, then by id, the later first. -/
def newestFirst (a b : RawEvent) : Bool :=
  b.createdAt < a.createdAt || (!decide (a.createdAt < b.createdAt) && decide (b.id ≤ a.id))

/-- Copies in that order. -/
def sortNewest (events : List RawEvent) : List RawEvent :=
  events.insertionSort fun a b => newestFirst a b = true

/-- What a restoring device finds in a set of backups. -/
inductive Restore
  | protectedCopy (e : RawEvent)
  | retired (e : RawEvent)
  | opened (words : List String) (e : RawEvent)
  | undecryptable
  | failed (err : SeedError)
  | nativeOnly (e : RawEvent)
  | nothing

def legacyCopies (events : List RawEvent) : List RawEvent :=
  sortNewest (events.filter (isChamaSeedEvent host))

/-- The restore order of `getOrCreateSeed`: a browser's protected copy, then any retirement, then
the newest v1 copy that opens. -/
def restoreOrder (existing : List RawEvent) : Restore :=
  let protectedEvents := existing.filter (isProtectedSeedEvent host)
  match (sortNewest (protectedEvents.filter isBrowserProtectedSeedEvent)).head? with
  | some e => .protectedCopy e
  | none =>
    match (legacyCopies host existing).find? (isRetiredSeed host) with
    | some e => .retired e
    | none =>
      if legacyCopies host existing = [] then
        match protectedEvents.head? with
        | some e => .nativeOnly e
        | none => .nothing
      else
        match recoverSeedWordsFromEvents host host.nip04Decrypt (legacyCopies host existing) with
        | .error err => .failed err
        | .ok (some (words, e)) => .opened words e
        | .ok none => .undecryptable

/-! ### The check of the backups -/

def seedBackupScope (e : RawEvent) : Option String :=
  ((e.event.tags.find? fun tag => tag.head? = some "d").bind fun tag => tag[1]?)

/-- What the copies on the relays say about the saved one; a copy that is newer may take its
place. -/
inductive Verdict
  | ours (newer : Option RawEvent)
  | missing
  | unchecked
  | different

/-- The loop of `verdict` over the copies of the saved one's scope. -/
def compareCopies (localEvent : RawEvent) (seed : List String) (mayPrompt : Bool) :
    List RawEvent → Except SeedError Verdict
  | [] => .ok .missing
  | e :: rest =>
    if e.id = localEvent.id then .ok (.ours none)
    else if e.createdAt < localEvent.createdAt then .ok .missing
    else if isProtectedSeedEvent host e then .ok .different
    else if !mayPrompt then .ok .unchecked
    else
      match recoverSeedWordsFromEvents host none [e] with
      | .error err => .error err
      | .ok none => compareCopies localEvent seed mayPrompt rest
      | .ok (some (words, _)) =>
        if joinWords words = joinWords seed then .ok (.ours (some e)) else .ok .different

/-- The retirement check of `verdict`: every other v1 copy is opened. -/
def checkRetired (mayPrompt : Bool) : List String → List RawEvent → Option Verdict
  | _, [] => none
  | seen, e :: rest =>
    if e.id ∈ seen then checkRetired mayPrompt seen rest
    else if !mayPrompt then some .unchecked
    else if isRetiredSeed host e then some .different
    else checkRetired mayPrompt (e.id :: seen) rest

/-- `verdict` of `confirmSeedBackupOnRelays`. -/
def verdict (localEvent : RawEvent) (seed : List String) (mayPrompt : Bool)
    (events : List RawEvent) : Except SeedError Verdict :=
  if !isProtectedSeedEvent host localEvent && events.any isBrowserProtectedSeedEvent then
    .ok .different
  else
    match checkRetired host mayPrompt [localEvent.id]
      (if isProtectedSeedEvent host localEvent then [] else events.filter (isChamaSeedEvent host))
    with
    | some v => .ok v
    | none => compareCopies host localEvent seed mayPrompt
        (sortNewest (events.filter fun e => seedBackupScope e = seedBackupScope localEvent))

/-! ### The operations -/

/-- The cache of a tab; the last two say how often it was filled, and from which event. -/
structure SeedCache where
  seed : Option (List String) := none
  forPubkey : Option String := none
  protectedSeed : Bool := false
  needsRestoreConfirmation : Bool := false
  fills : ℕ := 0
  openedFrom : String := ""

def SeedCache.words (cache : SeedCache) : Option (List String) :=
  if cache.forPubkey = some host.pubkey then cache.seed else none

def SeedCache.filled (cache : SeedCache) (words : List String) (e : RawEvent)
    (marks : Option (Bool × Bool)) : SeedCache where
  seed := some words
  forPubkey := some host.pubkey
  protectedSeed := cache.protectedSeed || marks.any (·.1)
  needsRestoreConfirmation := (marks.map (·.2)).getD cache.needsRestoreConfirmation
  fills := cache.fills + 1
  openedFrom := e.id

/-- Why an event is handed to `publishRaw`: it is a new seed, the cached one again after a read of
the backups, or the saved copy as it was signed. -/
inductive Publication
  | created
  | republished (backups : List RawEvent) (seed : List String)
  | resent

/-- What the seed manager calls: the cache of its tab, the storage of the browser, the relays, the
creation lock and the signer. -/
inductive SeedOp
  | cache (tab : ℕ)
  | cacheAndLocal (tab : ℕ)
  | fill (tab : ℕ) (words : List String) (e : RawEvent) (marks : Option (Bool × Bool))
  | confirmRestore (tab : ℕ)
  | loadMarker
  | saveMarker (id : String)
  | saveLocal (e : RawEvent)
  | loadPending
  | savePending (id : String)
  | queryOnce
  | hasQuorum
  | acquire
  | release
  | generate
  | encrypt (mnemonic : String)
  | sign (content : String)
  | publishRaw (why : Publication) (e : RawEvent)

abbrev SeedOp.Reply : SeedOp → Type
  | cache _ => SeedCache
  | cacheAndLocal _ => SeedCache × Option RawEvent
  | fill .. | confirmRestore _ | saveMarker _ | saveLocal _ | savePending _ | release => Unit
  | loadMarker | loadPending | encrypt _ => Option String
  | queryOnce => List RawEvent
  | hasQuorum | acquire | publishRaw .. => Bool
  | generate => String
  | sign _ => Option RawEvent

abbrev seedSignature : Signature := ⟨SeedOp, SeedOp.Reply⟩

abbrev SeedProg := Prog seedSignature

def seedCall (op : SeedOp) : SeedProg op.Reply := Prog.invoke (S := seedSignature) op

/-- How a call of the seed manager ends.  A confirmation is kept with what it was made of: the words
of the tab, the copy they came from, the saved copy and the copies that were read. -/
inductive SeedResult
  | words (words : List String)
  | threw (err : SeedError)
  | republished (done : Bool)
  | unconfirmed
  | confirmed (seed : List String) (openedFrom : String) (localEvent : RawEvent)
    (events : List RawEvent)

/-! ### `getOrCreateSeed` -/

structure SeedReadOptions where
  existingOnly : Bool := false
  recoveryCode : Option String := none
  restoreConfirmed : Bool := false
  requireRestoreConfirmation : Bool := false
  afterCreationLock : Bool := false

variable (tab : ℕ) (options : SeedReadOptions)

/-- `saveSeedPublishedMarker` and `saveLocalSeedEvent`. -/
def saveCopy (e : RawEvent) : SeedProg Unit := do
  seedCall (.saveMarker e.id)
  seedCall (.saveLocal e)

def openProtectedSeed (e : RawEvent) : SeedProg SeedResult :=
  match options.recoveryCode with
  | none => return .threw .needsRecoveryCode
  | some code =>
    match host.nip44Decrypt e.content with
    | .opens json =>
      match host.unwrapSeedBackup json code with
      | none => return .threw .undecryptable
      | some mnemonic => do
        if options.requireRestoreConfirmation && !options.restoreConfirmed then
          return .threw .needsRestoreConfirmation
        else
          seedCall (.fill tab (splitWords mnemonic) e (some (true, !options.restoreConfirmed)))
          saveCopy e
          return .words (splitWords mnemonic)
    | _ => return .threw .undecryptable

def adoptLegacy (words : List String) (e : RawEvent) : SeedProg SeedResult := do
  let pending ← seedCall .loadPending
  if options.requireRestoreConfirmation && !options.restoreConfirmed && pending ≠ some e.id then
    return .threw .needsRestoreConfirmation
  else
    seedCall (.fill tab words e
      (some (false, pending ≠ some e.id && !options.restoreConfirmed)))
    saveCopy e
    return .words words

def recordCreated (mnemonic : String) (signed : RawEvent) : SeedProg (Option SeedResult) := do
  saveCopy signed
  seedCall (.savePending signed.id)
  seedCall (.fill tab (splitWords mnemonic) signed none)
  return some (.words (splitWords mnemonic))

def publishNewSeed : SeedProg (Option SeedResult) := do
  let mnemonic ← seedCall .generate
  match ← seedCall (.encrypt mnemonic) with
  | none => return some (.threw .signer)
  | some content =>
    match ← seedCall (.sign content) with
    | none => return some (.threw .signer)
    | some signed =>
      let stored ← seedCall (.publishRaw .created signed)
      if stored then recordCreated tab mnemonic signed else return some (.threw .publish)

def createSeed : SeedProg (Option SeedResult) := do
  let cache ← seedCall (.cache tab)
  if (cache.words host).isSome then return none
  else
    match ← seedCall .loadMarker with
    | some _ => return none
    | none =>
      let again ← seedCall .queryOnce
      if again.any (isSeedBackup host) then return none
      else
        let quorum ← seedCall .hasQuorum
        if !quorum || options.afterCreationLock then return none else publishNewSeed tab

def withSeedCreationLock (create : SeedProg (Option SeedResult)) :
    SeedProg (Option SeedResult) := do
  let acquired ← seedCall .acquire
  if acquired then
    let created ← create
    seedCall .release
    return created
  else return some (.threw .relaysUnready)

/-- What follows the lock: a creation that was left to another read is followed by that read. -/
def orDeferred (deferred : SeedProg SeedResult) : Option SeedResult → SeedProg SeedResult
  | some created => .ret created
  | none => deferred

/-- What follows a read without a backup: the refusals, then the creation. -/
def createUnlessMarked (deferred : SeedProg SeedResult) : SeedProg SeedResult := do
  match ← seedCall .loadMarker with
  | some _ => return .threw .unreachable
  | none =>
    let quorum ← seedCall .hasQuorum
    if !quorum then return .threw .relaysUnready
    else if options.existingOnly then return .threw .missing
    else withSeedCreationLock (createSeed host tab options) >>= orDeferred deferred

def openBackups (deferred : SeedProg SeedResult) (existing : List RawEvent) :
    SeedProg SeedResult :=
  match restoreOrder host existing with
  | .protectedCopy e => do
    saveCopy e
    openProtectedSeed host tab options e
  | .retired e => do
    saveCopy e
    return .threw .needsRecoveryCode
  | .opened words e => adoptLegacy tab options words e
  | .undecryptable => return .threw .undecryptable
  | .failed err => return .threw err
  | .nativeOnly e => do
    seedCall (.saveMarker e.id)
    return .threw .needsRecoveryCode
  | .nothing => createUnlessMarked host tab options deferred

/-- `queryOnce`, and what of its answer is a backup. -/
def queryBackups : SeedProg (List RawEvent) := do
  return (← seedCall .queryOnce).filter (isSeedBackup host)

/-- `queryUntilFound`, with this many tries. -/
def queryUntilFound : ℕ → SeedProg (List RawEvent)
  | 0 => return []
  | tries + 1 => do
    let existing ← queryBackups host
    if existing = [] then queryUntilFound tries else return existing

def queryWithRetry : SeedProg (List RawEvent) := do
  let existing ← queryBackups host
  if existing = [] then
    let marker ← seedCall .loadMarker
    if marker.isSome then queryUntilFound host 3 else return []
  else return existing

/-- The saved copy is ranked with what the relays return when the signer is interactive. -/
def withLocal (localEvent : Option RawEvent) (existing : List RawEvent) : List RawEvent :=
  match localEvent with
  | some e =>
    if host.requiresUserAction && !existing.any (·.id = e.id) then existing ++ [e] else existing
  | none => existing

/-- The part of `getOrCreateSeed` that asks the relays. -/
def readRelays (deferred : SeedProg SeedResult) (localEvent : Option RawEvent) :
    SeedProg SeedResult := do
  let existing ← queryWithRetry host
  openBackups host tab options deferred (withLocal host localEvent existing)

/-- The fast path of a returning device, over the saved copy. -/
def openLocal (deferred : SeedProg SeedResult) (localEvent : RawEvent) : SeedProg SeedResult :=
  if isProtectedSeedEvent host localEvent then
    if isBrowserProtectedSeedEvent localEvent then openProtectedSeed host tab options localEvent
    else return .threw .needsRecoveryCode
  else if isRetiredSeed host localEvent then
    if options.recoveryCode = none then return .threw .needsRecoveryCode
    else readRelays host tab options deferred (some localEvent)
  else
    match recoverSeedWordsFromEvents host host.nip04Decrypt [localEvent] with
    | .error err => return .threw err
    | .ok (some (words, _)) => do
      seedCall (.fill tab words localEvent none)
      return .words words
    | .ok none => readRelays host tab options deferred (some localEvent)

def openCached (cache : SeedCache) (words : List String) : SeedProg SeedResult := do
  if options.requireRestoreConfirmation && cache.needsRestoreConfirmation &&
      !options.restoreConfirmed then
    return .threw .needsRestoreConfirmation
  else if options.restoreConfirmed then
    seedCall (.confirmRestore tab)
    return .words words
  else return .words words

def openSession (deferred : SeedProg SeedResult) (cache : SeedCache)
    (localEvent : Option RawEvent) : SeedProg SeedResult :=
  match cache.words host, localEvent with
  | some words, _ => openCached tab options cache words
  | none, some localEvent =>
    if host.requiresUserAction then readRelays host tab options deferred (some localEvent)
    else openLocal host tab options deferred localEvent
  | none, none => readRelays host tab options deferred none

/-- One pass of `getOrCreateSeed`. -/
def getOrCreatePass (deferred : SeedProg SeedResult) : SeedProg SeedResult := do
  let opening ← seedCall (.cacheAndLocal tab)
  openSession host tab options deferred opening.1 opening.2

/-- `getOrCreateSeed`.  A creation that was left to another read is followed by that read, which
creates nothing. -/
def getOrCreateSeed : SeedProg SeedResult :=
  if options.afterCreationLock then
    getOrCreatePass host tab options (.ret (.threw .relaysUnready))
  else
    getOrCreatePass host tab options (getOrCreatePass host tab
      { options with afterCreationLock := true } (.ret (.threw .relaysUnready)))

def getExistingSeed (allowUserAction : Bool) : SeedProg SeedResult := do
  let cache ← seedCall (.cache tab)
  match cache.words host with
  | some words => return .words words
  | none =>
    if host.requiresUserAction && !allowUserAction then return .threw .locked
    else getOrCreateSeed host tab { existingOnly := true }

inductive SeedRequest
  | getOrCreate (tab : ℕ) (options : SeedReadOptions)
  | getExisting (tab : ℕ) (allowUserAction : Bool)

def SeedRequest.run : SeedRequest → SeedProg SeedResult
  | getOrCreate tab options => getOrCreateSeed host tab options
  | getExisting tab allowUserAction => getExistingSeed host tab allowUserAction

/-! ### Keeping a backup alive -/

/-- Whether the backups that were read allow the cached seed to be published over them. -/
def mayRepublish (backups : List RawEvent) : Bool :=
  !backups.isEmpty && !backups.any (isProtectedSeedEvent host) &&
  !(backups.filter (isChamaSeedEvent host)).any (isRetiredSeed host)

/-- The rest of `republishSeed` after its read. -/
def republishOver (cache : SeedCache) (seed : List String) (backups : List RawEvent) :
    SeedProg SeedResult := do
  let again ← seedCall (.cache tab)
  if (again.words host).isNone || again.fills ≠ cache.fills || again.protectedSeed then
    return .republished false
  else
    match ← seedCall (.encrypt (joinWords seed)) with
    | none => return .threw .signer
    | some content =>
      match ← seedCall (.sign content) with
      | none => return .threw .signer
      | some signed =>
        let last ← seedCall (.cache tab)
        if (last.words host).isNone || last.fills ≠ cache.fills || last.protectedSeed then
          return .republished false
        else
          let stored ← seedCall (.publishRaw (.republished backups seed) signed)
          if stored then
            saveCopy signed
            return .republished true
          else return .threw .publish

def republishSeed : SeedProg SeedResult := do
  let cache ← seedCall (.cache tab)
  match cache.words host with
  | none => return .republished false
  | some seed =>
    if cache.protectedSeed then return .republished false
    else
      let backups ← seedCall .queryOnce
      let quorum ← seedCall .hasQuorum
      if quorum && mayRepublish host backups then republishOver host tab cache seed backups
      else return .republished false

/-- `checkAndMaybeRepublishSeed`, which republishes a seed whose newest backup is older than a
week. -/
def checkAndMaybeRepublishSeed (now : JsNumber) : SeedProg SeedResult := do
  let existing ← queryBackups host
  match existing with
  | [] => return .republished false
  | e :: rest =>
    let newest := rest.foldl
      (fun a b => if a.createdAt < b.createdAt then b else a) e
    if 604800000 < now - newest.createdAt * 1000 then republishSeed host tab
    else return .republished false

/-! ### `confirmSeedBackupOnRelays` -/

/-- What a verdict means for the check; a newer copy of the same words is saved. -/
def concludeVerdict (cache : SeedCache) (seed : List String) (localEvent : RawEvent)
    (events : List RawEvent) (missing : SeedProg SeedResult) :
    Except SeedError Verdict → SeedProg SeedResult
  | .ok (.ours newer) => do
    match newer with
    | some e =>
      saveCopy e
      return .confirmed seed cache.openedFrom localEvent events
    | none => return .confirmed seed cache.openedFrom localEvent events
  | .ok .missing => missing
  | _ => return .unconfirmed

def readCopies : SeedProg (List RawEvent) := do
  return (← seedCall .queryOnce).filter fun e => isSeedBackup host e && host.verifySignature e

def confirmSeedBackupOnRelays (mayPrompt : Bool) : SeedProg SeedResult := do
  let opening ← seedCall (.cacheAndLocal tab)
  match opening.1.words host, opening.2 with
  | some seed, some localEvent =>
    let events ← readCopies host
    concludeVerdict opening.1 seed localEvent events
      (do
        let quorum ← seedCall .hasQuorum
        if !quorum then return .unconfirmed
        else
          let _ ← seedCall (.publishRaw .resent localEvent)
          let events ← readCopies host
          concludeVerdict opening.1 seed localEvent events (.ret .unconfirmed)
            (verdict host localEvent seed mayPrompt events))
      (verdict host localEvent seed mayPrompt events)
  | _, _ => return .unconfirmed

/-! ### The platform -/

/-- What the tabs of a browser share, the cache of each tab, what the relays hold, and what has
happened: a read that returned a backup, the new seeds handed to `publishRaw`, whether one of them
was after such a read, and what was published over which backups. -/
structure SeedWorld where
  caches : ℕ → SeedCache := fun _ => {}
  marker : Option String := none
  localEvent : Option RawEvent := none
  pending : Option String := none
  held : List RawEvent := []
  seen : Bool := false
  made : List RawEvent := []
  late : Bool := false
  republished : List (RawEvent × List RawEvent × List String) := []

def loadLocalSeedEvent (w : SeedWorld) : Option RawEvent :=
  w.localEvent.filter fun e =>
    w.marker = some e.id && isSeedBackup host e && host.verifySignature e

inductive SeedChoice
  | quiet
  | reads (positions : List ℕ)
  | answers (b : Bool)
  | mints (mnemonic : String)
  | ciphers (content : String)
  | signs (e : RawEvent)
  | stores
  | throws (stored : Bool)
  | appears (e : RawEvent)
  | clears (tab : ℕ) (cache : SeedCache)

/-- The world after an event was handed to `publishRaw`. -/
def SeedWorld.handOver (w : SeedWorld) (why : Publication) (e : RawEvent) : SeedWorld :=
  match why with
  | .created =>
    { w with made := e :: w.made, late := w.late || w.seen || !w.made.isEmpty }
  | .republished backups seed => { w with republished := (e, backups, seed) :: w.republished }
  | .resent => w

/-- What a call does.  Relays return any of what they hold; a ciphertext opens to what it was made
of; a signed event verifies and carries what was asked to be signed. -/
def performSeed : (op : SeedOp) → SeedWorld → SeedChoice → Option (op.Reply × SeedWorld)
  | .cache tab, w, .quiet => some (w.caches tab, w)
  | .cacheAndLocal tab, w, .quiet => some ((w.caches tab, loadLocalSeedEvent host w), w)
  | .fill tab words e marks, w, .quiet =>
    some ((), { w with
      caches := Function.update w.caches tab ((w.caches tab).filled host words e marks) })
  | .confirmRestore tab, w, .quiet =>
    some ((), { w with
      caches := Function.update w.caches tab
        { w.caches tab with needsRestoreConfirmation := false } })
  | .loadMarker, w, .quiet => some (w.marker, w)
  | .saveMarker id, w, .quiet => some ((), { w with marker := some id })
  | .saveLocal e, w, .quiet => some ((), { w with localEvent := some e })
  | .loadPending, w, .quiet => some (w.pending, w)
  | .savePending id, w, .quiet => some ((), { w with pending := some id })
  | .queryOnce, w, .reads positions =>
    let events := positions.filterMap fun i => w.held[i]?
    some (events, { w with seen := w.seen || events.any (isSeedBackup host) })
  | .hasQuorum, w, .answers b => some (b, w)
  | .acquire, w, .answers b => some (b, w)
  | .release, w, .quiet => some ((), w)
  | .generate, w, .mints mnemonic => some (mnemonic, w)
  | .encrypt mnemonic, w, .ciphers content =>
    match host.nip44Decrypt content with
    | .opens plain => if plain = mnemonic then some (some content, w) else none
    | _ => none
  | .encrypt _, w, .throws _ => some (none, w)
  | .sign content, w, .signs e =>
    if e.content = content ∧ e.kind = chamaSeedKind ∧ e.event.pubkey = host.pubkey ∧
        e.event.tags = [["d", chamaSeedDTag], ["client", "chama"]] ∧
        host.verifySignature e = true then
      some (some e, w)
    else none
  | .sign _, w, .throws _ => some (none, w)
  | .publishRaw why e, w, .stores =>
    some (true, { w.handOver why e with held := w.held ++ [e] })
  | .publishRaw why e, w, .throws stored =>
    some (false, { w.handOver why e with held := if stored then w.held ++ [e] else w.held })
  | _, _, _ => none

/-- What moves on its own: another device publishes, or the cache of a tab is cleared or taken by
another identity. -/
def driftSeed (w : SeedWorld) : SeedChoice → Option SeedWorld
  | .appears e => if host.verifySignature e then some { w with held := w.held ++ [e] } else none
  | .clears tab cache =>
    if cache.forPubkey = some host.pubkey then none
    else some { w with
      caches := Function.update w.caches tab { cache with fills := (w.caches tab).fills + 1 } }
  | _ => none

abbrev seedPlatform : Platform where
  Op := SeedOp
  Reply := SeedOp.Reply
  World := SeedWorld
  Choice := SeedChoice
  perform := performSeed host
  drift := driftSeed host

/-! ### A sample identity -/

def sampleSeedTags (id : String) : List (List String) :=
  if id = "protected" then [["d", seedV2BrowserDTag]]
  else [["d", chamaSeedDTag], ["client", "chama"]]

/-- The sample events are those whose id says the rest: the content is the id, and its length is the
time. -/
def sampleVerify (e : RawEvent) : Bool :=
  e.kind = chamaSeedKind && e.event.pubkey = "p" && e.content = e.id &&
  e.event.createdAt = .ofInt e.id.length && e.event.tags = sampleSeedTags e.id

theorem sampleVerify_inj (a b : RawEvent) (ha : sampleVerify a = true) (hb : sampleVerify b = true)
    (hid : a.id = b.id) : a = b := by
  unfold sampleVerify at ha hb
  simp only [Bool.and_eq_true, decide_eq_true_eq] at ha hb
  obtain ⟨⟨⟨⟨hkind, hpubkey⟩, hcontent⟩, htime⟩, htags⟩ := ha
  obtain ⟨⟨⟨⟨hkind', hpubkey'⟩, hcontent'⟩, htime'⟩, htags'⟩ := hb
  have htimes := htime.trans ((congrArg (fun id : String => JsNumber.ofInt id.length) hid).trans
    htime'.symm)
  have htag := htags.trans ((congrArg sampleSeedTags hid).trans htags'.symm)
  have hcontents := hcontent.trans (hid.trans hcontent'.symm)
  have hpubkeys := hpubkey.trans hpubkey'.symm
  have hkinds := hkind.trans hkind'.symm
  clear hkind hkind' hpubkey hpubkey' hcontent hcontent' htime htime' htags htags'
  obtain ⟨⟨ida, pka, ta, tagsa, _, _, _⟩, ka, ca⟩ := a
  obtain ⟨⟨idb, pkb, tb, tagsb, _, _, _⟩, kb, cb⟩ := b
  obtain rfl : ida = idb := hid
  obtain rfl : pka = pkb := hpubkeys
  obtain rfl : ta = tb := htimes
  obtain rfl : tagsa = tagsb := htag
  obtain rfl : ka = kb := hkinds
  obtain rfl : ca = cb := hcontents
  rfl

theorem sampleSeed_pubkey : "p" ≠ "" := by decide

def sampleSeedEvent (id : String) (hid : id ≠ "" := by decide)
    (htime : JsNumber.ofInt id.length ≠ .nan := by decide) : RawEvent where
  event :=
    { id := id, pubkey := "p", createdAt := .ofInt id.length, tags := sampleSeedTags id
      id_ne := hid, pubkey_ne := sampleSeed_pubkey, createdAt_ne := htime }
  kind := chamaSeedKind
  content := id

def sampleSeedHost : SeedHost where
  pubkey := "p"
  parseJson s := if s = "retired" then some (.obj [("retired", .bool true)]) else none
  unwrapSeedBackup _ _ := none
  verifySignature := sampleVerify
  verify_inj := sampleVerify_inj
  nip44Decrypt := .opens

end Seed

end ChamaEscrow
