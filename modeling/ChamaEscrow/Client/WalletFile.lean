import ChamaEscrow.Js.Rounding
import ChamaEscrow.Js.Value
import ChamaEscrow.Library.OrderedMap

/-!
# The file of the browser wallet

`createRealWallet` of `sdk-adapter.ts` opens the wallet file that is stored for a scope, and deletes
it where its seed differs from that of the identity and a look at its balance found it empty
(`orphan-wipe-policy.ts`).  What the browser and the SDK answer in one run is an `Outcomes`.

* `removals_confirmed_iff`: a run removes only the file it had opened, after its balance was read as
  zero or its open failed for want of a client, exactly if `fedimint.db` is that file or cannot be
  removed, and the empty balance was one of these.
* `default_file_removed`: an empty file of a scope is deleted together with `fedimint.db`.
-/

namespace ChamaEscrow

open Js Library

namespace WalletFile

/-! ### The policy -/

inductive OrphanPeek
  | balance (balanceMsats : JsNumber)
  | noClient
  | unknown (reason : String)

inductive FilenameSource
  | scoped
  | legacy
  deriving DecidableEq

inductive OrphanWipeDecision
  | preserveAndRescope (balanceMsats : Option JsNumber)
  | wipe
  | refuseBalance (balanceMsats : JsNumber)
  | refuseUnknown (reason : String)

def given (text : Option String) : Bool := text.any (· ≠ "")

def decideOrphanWipe (peek : OrphanPeek) (storageScope : Option String) (source : FilenameSource) :
    OrphanWipeDecision :=
  let canPark := given storageScope && source = .legacy
  match peek with
  | .balance balanceMsats =>
    if 0 < balanceMsats then
      if canPark then .preserveAndRescope (some balanceMsats) else .refuseBalance balanceMsats
    else .wipe
  | .noClient => .wipe
  | .unknown reason => if canPark then .preserveAndRescope none else .refuseUnknown reason

/-- `NO_CLIENT_OPEN_ERROR_RE`. -/
def isNoClientOpenError (message : String) : Bool :=
  ["client is not initialized", "client database not initialized", "database not initialized",
    "not initialized for this database", "no such client", "client secret is not present",
    "run join first"].any (textIncludes (toLowerCase message))

/-- The look at the balance of the open file, as it went. -/
inductive PeekRun
  | createFailed (message : String)
  | openFailed (message : String)
  | notOpen
  | balanceFailed (message : String)
  | read (balanceMsats : JsNumber)

def clip (message : String) : String := String.ofList (message.toList.take 200)

/-- What the look is taken to say. -/
def PeekRun.peek : PeekRun → OrphanPeek
  | createFailed message => .unknown (clip message)
  | openFailed message | balanceFailed message =>
    if isNoClientOpenError message then .noClient else .unknown (clip message)
  | notOpen => .unknown "wallet did not open"
  | read balanceMsats => .balance balanceMsats

/-- The file was found empty: its balance was read as zero, or its open failed for want of a
client. -/
def PeekRun.ConfirmsEmpty : PeekRun → Prop
  | openFailed message => isNoClientOpenError message = true
  | read balanceMsats => balanceMsats = 0
  | _ => False

/-! ### What the browser keeps -/

/-- `BrowserWalletRecoveryRequest`. -/
structure RecoveryRequest where
  operationId : String
  federationId : String
  requestedAt : JsNumber
  trigger : Option String := none

/-- `BrowserWalletRecoveryJournal`, as far as this code writes it. -/
structure RecoveryJournal where
  stage : String
  operationId : String
  federationId : String
  trigger : String
  requestedAt : JsNumber
  updatedAt : JsNumber
  oldFilename : Option String := none
  newFilename : Option String := none
  error : Option String := none

/-- An entry that was removed, the file that was open then, and the look at its balance. -/
structure Removal where
  name : String
  opened : String
  peek : PeekRun

/-- What `localStorage` holds by its keys, each kind of value on its own; where it is blocked every
access throws.  The last fields count the random names and keep what was removed and which file the
mint lock is for. -/
structure Browser where
  blocked : Bool := false
  names : OrderedMap String String := .empty
  requests : OrderedMap String RecoveryRequest := .empty
  journals : OrderedMap String RecoveryJournal := .empty
  drawn : ℕ := 0
  removed : List Removal := []
  mintLockScope : Option String := none

/-- How an attempt to open a file fails. -/
inductive InitError
  | lock
  | transient
  | other
  deriving DecidableEq

/-- What the browser and the SDK answer in one run. -/
structure Outcomes where
  randomId : ℕ → String
  removable : String → Bool
  available : Bool := true
  directory : Bool := true
  keepsReceipt : Bool := true
  now : JsNumber := 0
  init : Option InitError := none
  retry : Option InitError := none
  seed : Option (List String) := none
  overwrites : Bool := false
  installs : Bool := true
  peek : PeekRun := .notOpen
  freshInit : Bool := true
  creates : Bool := true

/-- `CreateRealWalletOptions`, as far as the file depends on them. -/
structure Options where
  mnemonic : List String := []
  storageScope : Option String := none
  allowRecoveryOnJoin : Bool := false

/-- What `createRealWallet` throws. -/
inductive WalletError
  | unavailable
  | receiptRefused
  | fileBusy
  | storageUnavailable
  | initFailed
  | orphanBalanceRefused (balanceMsats : JsNumber)
  | orphanBalanceUnknown (reason : String)
  | sdk

variable (o : Outcomes)

/-! ### Filenames -/

def filenameStorageKey : String := "chama_fedimint_opfs_file_v1"

def defaultFilename : String := "fedimint.db"

def isDedicatedArbiterFederationScope (scope : Option String) : Bool :=
  scope.any fun scope => textIncludes (toLowerCase (trim scope)) ":arbiter-fed:"

def scopedFilenameKey (scope : Option String) : Option String :=
  (scope.map fun scope => toLowerCase (trim scope)).bind fun clean =>
    if clean = "" then none else some (filenameStorageKey ++ ":" ++ clean)

/-- `localStorage.getItem(FILENAME_STORAGE_KEY) || DEFAULT_FILENAME`. -/
def legacyFilename (b : Browser) : String :=
  match b.names.get filenameStorageKey with
  | some name => if name = "" then defaultFilename else name
  | none => defaultFilename

def rememberFilename (scope : Option String) (name : String) (b : Browser) : Browser :=
  if b.blocked then b
  else { b with names := b.names.set ((scopedFilenameKey scope).getD filenameStorageKey) name }

def freshFilename (n : ℕ) : String := "chama-fedimint-" ++ o.randomId n ++ ".db"

def rotateFilename (scope : Option String) (b : Browser) : String × Browser :=
  (freshFilename o b.drawn,
    rememberFilename scope (freshFilename o b.drawn) { b with drawn := b.drawn + 1 })

def getStoredFilenameEntry (scope : Option String) (b : Browser) :
    String × FilenameSource × Browser :=
  if b.blocked then (defaultFilename, .legacy, b)
  else
    match scopedFilenameKey scope with
    | some key =>
      if given (b.names.get key) then
        let stored := (b.names.get key).getD ""
        if isDedicatedArbiterFederationScope scope && stored = legacyFilename b then
          let fresh := rotateFilename o scope b
          (fresh.1, .scoped, fresh.2)
        else (stored, .scoped, b)
      else if isDedicatedArbiterFederationScope scope then
        let fresh := rotateFilename o scope b
        (fresh.1, .scoped, fresh.2)
      else (legacyFilename b, .legacy, b)
    | none => (legacyFilename b, .legacy, b)

/-! ### Recovery requests -/

def browserWalletRecoveryRequestKey (scope : Option String) : String :=
  "chama_fedimint_recovery_request_v1:" ++
    if given scope then scope.getD "" else "legacy"

def journalKey (scope : Option String) : String :=
  "chama_fedimint_recovery_journal_v1:" ++
    if given scope then scope.getD "" else "legacy"

def consumeBrowserWalletRecoveryRequest (scope : Option String) (b : Browser) :
    Option RecoveryRequest × Browser :=
  if b.blocked then (none, b)
  else
    match b.requests.get (browserWalletRecoveryRequestKey scope) with
    | some request =>
      (some request,
        { b with requests := b.requests.erase (browserWalletRecoveryRequestKey scope) })
    | none => (none, b)

def requestBrowserWalletRecovery (scope : Option String) (request : RecoveryRequest)
    (b : Browser) : Browser :=
  if b.blocked then b
  else { b with requests := b.requests.set (browserWalletRecoveryRequestKey scope) request }

/-- `writeBrowserWalletRecoveryJournal`, where the browser keeps it. -/
def writeBrowserWalletRecoveryJournal (scope : Option String) (journal : RecoveryJournal)
    (b : Browser) : Browser :=
  if o.keepsReceipt then { b with journals := b.journals.set (journalKey scope) journal } else b

/-! ### The run -/

/-- The file that a run opens, and the one to go back to with the request that moved it. -/
structure Selected where
  filename : String
  source : FilenameSource
  rollback : Option (String × RecoveryRequest) := none

variable (opts : Options)

/-- The choice of the file: a pending recovery request moves the run to a fresh one. -/
def selectFile (b : Browser) : Selected × Browser :=
  let entry := getStoredFilenameEntry o opts.storageScope b
  let incident :=
    if opts.mnemonic ≠ [] ∧ opts.allowRecoveryOnJoin = true then
      consumeBrowserWalletRecoveryRequest opts.storageScope entry.2.2
    else (none, entry.2.2)
  match incident.1 with
  | none => ({ filename := entry.1, source := entry.2.1 }, incident.2)
  | some request =>
    let fresh := rotateFilename o opts.storageScope incident.2
    ({ filename := fresh.1
       source := if given opts.storageScope then .scoped else .legacy
       rollback := some (entry.1, request) }, fresh.2)

def recoveryReceipt (filename oldFilename : String) (request : RecoveryRequest) :
    RecoveryJournal where
  stage := "rotating"
  operationId := request.operationId
  federationId := request.federationId
  trigger := request.trigger.getD "operation-proof"
  requestedAt := request.requestedAt
  updatedAt := o.now
  oldFilename := some oldFilename
  newFilename := some filename

/-- The opening of the file, which is tried once more after a failure of its handle. -/
def openSelected : Except WalletError Unit :=
  match o.init with
  | none => .ok ()
  | some .other => .error .initFailed
  | some _ =>
    match o.retry with
    | none => .ok ()
    | some .lock => .error .fileBusy
    | some .transient => .error .storageUnavailable
    | some .other => .error .initFailed

def sameWords (existing mnemonic : List String) : Bool :=
  existing.length = mnemonic.length &&
  (existing.zip mnemonic).all fun pair =>
    trim (toLowerCase pair.1) = trim (toLowerCase pair.2)

/-- `removeEntry`, where there is such an entry. -/
def removeEntry (name opened : String) (b : Browser) : Browser :=
  if o.removable name && !b.removed.any (·.name = name) then
    { b with removed := ⟨name, opened, o.peek⟩ :: b.removed }
  else b

def deleteCurrent (opened : String) (b : Browser) : Browser :=
  if o.directory then
    let old := getStoredFilenameEntry o opts.storageScope b
    removeEntry o defaultFilename opened (removeEntry o old.1 opened old.2.2)
  else b

def installMnemonicInFreshFile (deleteCurrentFile : Bool) (opened : String) (b : Browser) :
    Except WalletError String × Browser :=
  let deleted := if deleteCurrentFile then deleteCurrent o opts opened b else b
  let fresh := rotateFilename o opts.storageScope deleted
  if o.freshInit && o.installs then (.ok fresh.1, fresh.2) else (.error .sdk, fresh.2)

/-- What is done about an orphan, a file of another seed that is not overwritten. -/
def handleOrphan (selected : Selected) (b : Browser) : Except WalletError String × Browser :=
  match decideOrphanWipe o.peek.peek opts.storageScope selected.source with
  | .preserveAndRescope _ => installMnemonicInFreshFile o opts false selected.filename b
  | .refuseBalance balanceMsats => (.error (.orphanBalanceRefused balanceMsats), b)
  | .refuseUnknown reason => (.error (.orphanBalanceUnknown reason), b)
  | .wipe => installMnemonicInFreshFile o opts true selected.filename b

def adoptFile (selected : Selected) (b : Browser) : Browser :=
  if given opts.storageScope && selected.source = .legacy then
    rememberFilename opts.storageScope selected.filename b
  else b

def settleSeed (selected : Selected) (b : Browser) : Except WalletError String × Browser :=
  if opts.mnemonic = [] then
    if o.seed.any (· ≠ []) || o.installs then (.ok selected.filename, b) else (.error .sdk, b)
  else if (o.seed.any (· ≠ [])) = true then
    if sameWords (o.seed.getD []) opts.mnemonic then
      (.ok selected.filename, adoptFile opts selected b)
    else if o.overwrites then (.ok selected.filename, b)
    else handleOrphan o opts selected b
  else if o.installs then (.ok selected.filename, adoptFile opts selected b)
  else (.error .sdk, b)

def openWallet (selected : Selected) (b : Browser) : Except WalletError Unit × Browser :=
  match openSelected o with
  | .error err => (.error err, b)
  | .ok () =>
    let settled := settleSeed o opts selected b
    match settled.1 with
    | .error err => (.error err, settled.2)
    | .ok filename =>
      if o.creates then (.ok (), { settled.2 with mintLockScope := some filename })
      else (.error .sdk, settled.2)

def putBack (selected : Selected) (b : Browser) : Browser :=
  match selected.rollback with
  | none => b
  | some (oldFilename, request) =>
    let noted :=
      match b.journals.get (journalKey opts.storageScope) with
      | some journal => writeBrowserWalletRecoveryJournal o opts.storageScope
          { journal with
            stage := "inconclusive"
            error := some ("Fresh recovery wallet initialization failed; " ++
              "restored the prior file pointer")
            updatedAt := o.now } b
      | none => b
    requestBrowserWalletRecovery opts.storageScope request
      (rememberFilename opts.storageScope oldFilename noted)

def createRealWallet (b : Browser) : Except WalletError Unit × Browser :=
  if o.available then
    let selection := selectFile o opts b
    match selection.1.rollback with
    | some (oldFilename, request) =>
      let noted := writeBrowserWalletRecoveryJournal o opts.storageScope
        (recoveryReceipt o selection.1.filename oldFilename request) selection.2
      if o.keepsReceipt then
        let run := openWallet o opts selection.1 noted
        match run.1 with
        | .ok () => run
        | .error err => (.error err, putBack o opts selection.1 run.2)
      else (.error .receiptRefused, putBack o opts selection.1 noted)
    | none => openWallet o opts selection.1 selection.2
  else (.error .unavailable, b)

/-! ### What leaves the entries alone -/

section Frame

variable (scope : Option String) (b : Browser)

@[simp]
theorem removed_rememberFilename (name : String) :
    (rememberFilename scope name b).removed = b.removed := by
  unfold rememberFilename
  split_ifs <;> rfl

@[simp]
theorem removed_rotateFilename : (rotateFilename o scope b).2.removed = b.removed :=
  removed_rememberFilename _ _ _

@[simp]
theorem removed_getStoredFilenameEntry :
    (getStoredFilenameEntry o scope b).2.2.removed = b.removed := by
  unfold getStoredFilenameEntry
  cases scopedFilenameKey scope with
  | none => split_ifs <;> rfl
  | some key =>
    dsimp only
    split_ifs
    · rfl
    · exact removed_rotateFilename o scope b
    · rfl
    · exact removed_rotateFilename o scope b
    · rfl

@[simp]
theorem removed_consumeBrowserWalletRecoveryRequest :
    (consumeBrowserWalletRecoveryRequest scope b).2.removed = b.removed := by
  unfold consumeBrowserWalletRecoveryRequest
  split_ifs
  · rfl
  · split <;> rfl

@[simp]
theorem removed_requestBrowserWalletRecovery (request : RecoveryRequest) :
    (requestBrowserWalletRecovery scope request b).removed = b.removed := by
  unfold requestBrowserWalletRecovery
  split_ifs <;> rfl

@[simp]
theorem removed_writeBrowserWalletRecoveryJournal (journal : RecoveryJournal) :
    (writeBrowserWalletRecoveryJournal o scope journal b).removed = b.removed := by
  unfold writeBrowserWalletRecoveryJournal
  split_ifs <;> rfl

@[simp]
theorem removed_putBack (selected : Selected) :
    (putBack o opts selected b).removed = b.removed := by
  unfold putBack
  split
  · rfl
  · dsimp only
    rw [removed_requestBrowserWalletRecovery, removed_rememberFilename]
    split
    · exact removed_writeBrowserWalletRecoveryJournal _ _ _ _
    · rfl

@[simp]
theorem removed_selectFile : (selectFile o opts b).2.removed = b.removed := by
  have hincident : (if opts.mnemonic ≠ [] ∧ opts.allowRecoveryOnJoin = true then
      consumeBrowserWalletRecoveryRequest opts.storageScope
        (getStoredFilenameEntry o opts.storageScope b).2.2
      else (none, (getStoredFilenameEntry o opts.storageScope b).2.2)).2.removed = b.removed := by
    split_ifs <;> simp
  unfold selectFile
  dsimp only
  split
  · exact hincident
  · exact (removed_rotateFilename _ _ _).trans hincident

end Frame

/-! ### Looking the file up again -/

section Lookup

variable {scope : Option String} {b b' : Browser}

theorem scopedFilenameKey_ne {key : String} (h : scopedFilenameKey scope = some key) :
    key ≠ filenameStorageKey := by
  unfold scopedFilenameKey at h
  rw [Option.bind_eq_some_iff] at h
  obtain ⟨clean, -, hclean⟩ := h
  split_ifs at hclean
  obtain rfl := Option.some.inj hclean
  intro heq
  have hlength := congrArg String.length heq
  rw [String.length_append, String.length_append] at hlength
  exact absurd hlength (by
    have : (":" : String).length = 1 := rfl
    omega)

theorem freshFilename_ne (n : ℕ) : freshFilename o n ≠ "" := by
  intro heq
  have hlength := congrArg String.length heq
  unfold freshFilename at hlength
  rw [String.length_append, String.length_append] at hlength
  exact absurd hlength (by
    have : (".db" : String).length = 3 := rfl
    have : ("" : String).length = 0 := rfl
    omega)

theorem storedFilename_congr {o : Outcomes} (hblocked : b'.blocked = b.blocked)
    (hnames : b'.names = b.names) (hdrawn : b'.drawn = b.drawn) :
    (getStoredFilenameEntry o scope b').1 = (getStoredFilenameEntry o scope b).1 := by
  have hlegacy : legacyFilename b' = legacyFilename b := by
    unfold legacyFilename
    rw [hnames]
  unfold getStoredFilenameEntry rotateFilename
  rw [hblocked, hnames, hdrawn, hlegacy]
  cases scopedFilenameKey scope with
  | none => split_ifs <;> rfl
  | some key =>
    dsimp only
    split_ifs <;> rfl

theorem storedFilename_remembered {name : String} (hblocked : b.blocked = false)
    (hname : name ≠ "") (hlegacy : name ≠ legacyFilename b) :
    (getStoredFilenameEntry o scope (rememberFilename scope name b)).1 = name := by
  unfold rememberFilename
  have hopen : ¬ b.blocked = true := Bool.not_eq_true _ ▸ hblocked
  rw [if_neg hopen]
  unfold getStoredFilenameEntry
  rw [if_neg hopen]
  cases hkey : scopedFilenameKey scope with
  | none =>
    dsimp only
    unfold legacyFilename
    rw [Option.getD_none, OrderedMap.get_set, if_pos rfl]
    exact if_neg hname
  | some key =>
    have hsame : legacyFilename { b with names := b.names.set key name } = legacyFilename b := by
      unfold legacyFilename
      rw [OrderedMap.get_set, if_neg (Ne.symm (scopedFilenameKey_ne hkey))]
    rw [Option.getD_some]
    dsimp only
    rw [hsame, OrderedMap.get_set, if_pos rfl, Option.getD_some,
      if_pos (show given (some name) = true from decide_eq_true hname), if_neg]
    rw [decide_eq_false hlegacy, Bool.and_false]
    exact Bool.false_ne_true

end Lookup

section Selection

variable {scope : Option String} {b : Browser}

theorem getStoredFilenameEntry_cases (o : Outcomes) (scope : Option String) (b : Browser) :
    (getStoredFilenameEntry o scope b).2.2 = b ∨ ∃ key, b.blocked = false ∧
      scopedFilenameKey scope = some key ∧
      (getStoredFilenameEntry o scope b).1 = freshFilename o b.drawn ∧
      (getStoredFilenameEntry o scope b).2.2 = (rotateFilename o scope b).2 := by
  unfold getStoredFilenameEntry
  cases hkey : scopedFilenameKey scope with
  | none =>
    left
    split_ifs <;> rfl
  | some key =>
    dsimp only
    split_ifs with hblocked
    · exact Or.inl rfl
    · exact Or.inr ⟨key, Bool.eq_false_of_not_eq_true hblocked, rfl, rfl, rfl⟩
    · exact Or.inl rfl
    · exact Or.inr ⟨key, Bool.eq_false_of_not_eq_true hblocked, rfl, rfl, rfl⟩
    · exact Or.inl rfl

theorem legacyFilename_getStored (o : Outcomes) (scope : Option String) (b : Browser) :
    legacyFilename (getStoredFilenameEntry o scope b).2.2 = legacyFilename b := by
  rcases getStoredFilenameEntry_cases o scope b with hsame | ⟨key, hopen, hkey, -, hrotated⟩
  · rw [hsame]
  · rw [hrotated]
    unfold rotateFilename rememberFilename
    rw [hkey, Option.getD_some, if_neg (by rw [hopen]; exact Bool.false_ne_true)]
    unfold legacyFilename
    dsimp only
    rw [OrderedMap.get_set, if_neg (Ne.symm (scopedFilenameKey_ne hkey))]

variable {o : Outcomes} (hnew : ∀ n, freshFilename o n ≠ legacyFilename b)

include hnew

theorem storedFilename_again :
    (getStoredFilenameEntry o scope (getStoredFilenameEntry o scope b).2.2).1 =
      (getStoredFilenameEntry o scope b).1 := by
  rcases getStoredFilenameEntry_cases o scope b with hsame | ⟨key, hopen, -, hname, hrotated⟩
  · rw [hsame]
  · rw [hrotated, hname]
    exact storedFilename_remembered o hopen (freshFilename_ne o _) (hnew _)

theorem storedFilename_selectFile {opts : Options} :
    (getStoredFilenameEntry o opts.storageScope (selectFile o opts b).2).1 =
      (selectFile o opts b).1.filename := by
  have hagain : (getStoredFilenameEntry o opts.storageScope
      (getStoredFilenameEntry o opts.storageScope b).2.2).1 =
        (getStoredFilenameEntry o opts.storageScope b).1 := storedFilename_again hnew
  have hlegacy := legacyFilename_getStored o opts.storageScope b
  unfold selectFile
  dsimp only
  generalize getStoredFilenameEntry o opts.storageScope b = entry at hagain hlegacy
  by_cases hrecover : opts.mnemonic ≠ [] ∧ opts.allowRecoveryOnJoin = true
  · rw [if_pos hrecover]
    unfold consumeBrowserWalletRecoveryRequest
    by_cases hblocked : entry.2.2.blocked = true
    · rw [if_pos hblocked]
      exact hagain
    · rw [if_neg hblocked]
      cases entry.2.2.requests.get (browserWalletRecoveryRequestKey opts.storageScope) with
      | none => exact hagain
      | some request =>
        refine storedFilename_remembered o (Bool.eq_false_of_not_eq_true hblocked)
          (freshFilename_ne o _) ?_
        change freshFilename o _ ≠ legacyFilename entry.2.2
        rw [hlegacy]
        exact hnew _
  · rw [if_neg hrecover]
    exact hagain

end Selection

/-! ### What a run removes -/

/-- The run comes to delete its file: it opens a file with another seed, which is not overwritten,
and finds it empty. -/
structure ReachesWipe (b : Browser) : Prop where
  available : o.available = true
  receipt : (selectFile o opts b).1.rollback.isSome → o.keepsReceipt = true
  opens : openSelected o = .ok ()
  mnemonic : opts.mnemonic ≠ []
  seeded : o.seed.any (· ≠ []) = true
  differs : sameWords (o.seed.getD []) opts.mnemonic = false
  kept : o.overwrites = false
  empty : decideOrphanWipe o.peek.peek opts.storageScope (selectFile o opts b).1.source = .wipe
  directory : o.directory = true

section Removals

variable {o} {opts} {b : Browser}

theorem forall_removeEntry {name opened : String} {P : Removal → Prop} :
    (∀ r ∈ (removeEntry o name opened b).removed, P r) ↔
      (∀ r ∈ b.removed, P r) ∧ (o.removable name = true → (∀ r ∈ b.removed, r.name ≠ name) →
        P ⟨name, opened, o.peek⟩) := by
  unfold removeEntry
  split_ifs with hremoves
  · obtain ⟨hremovable, hfresh⟩ := Bool.and_eq_true_iff.mp hremoves
    rw [Bool.not_eq_true', List.any_eq_false] at hfresh
    rw [List.forall_mem_cons, and_comm]
    exact and_congr_right fun _ => ⟨fun h _ _ => h, fun h => h hremovable
      fun r hr heq => hfresh r hr (decide_eq_true heq)⟩
  · refine ⟨fun h => ⟨h, fun hremovable hfresh => absurd ?_ hremoves⟩, And.left⟩
    rw [hremovable, Bool.true_and, Bool.not_eq_true', List.any_eq_false]
    exact fun r hr heq => hfresh r hr (of_decide_eq_true heq)

/-- The deletion tries the file that is stored, and `fedimint.db`. -/
theorem forall_deleteCurrent {opened : String} {P : Removal → Prop} (hnone : b.removed = [])
    (hstored : (getStoredFilenameEntry o opts.storageScope b).1 = opened) :
    (∀ r ∈ (deleteCurrent o opts opened b).removed, P r) ↔
      (o.directory = true → (o.removable opened = true → P ⟨opened, opened, o.peek⟩) ∧
        (o.removable defaultFilename = true → P ⟨defaultFilename, opened, o.peek⟩)) := by
  have hempty : (getStoredFilenameEntry o opts.storageScope b).2.2.removed = [] :=
    (removed_getStoredFilenameEntry o _ b).trans hnone
  have hfirst : ∀ Q : Removal → Prop, (∀ r ∈ (removeEntry o opened opened
      (getStoredFilenameEntry o opts.storageScope b).2.2).removed, Q r) ↔
        (o.removable opened = true → Q ⟨opened, opened, o.peek⟩) := by
    intro Q
    rw [forall_removeEntry, hempty]
    exact ⟨fun h hremovable => h.2 hremovable (List.forall_mem_nil _),
      fun h => ⟨List.forall_mem_nil _, fun hremovable _ => h hremovable⟩⟩
  unfold deleteCurrent
  split_ifs with hdirectory
  · dsimp only
    rw [hstored, forall_removeEntry]
    constructor
    · rintro ⟨hopened, hdefault⟩ -
      have hcurrent := (hfirst P).mp hopened
      refine ⟨hcurrent, fun hremovable => ?_⟩
      by_cases hsame : opened = defaultFilename
      · subst hsame
        exact hcurrent hremovable
      · exact hdefault hremovable ((hfirst fun r => r.name ≠ defaultFilename).mpr fun _ => hsame)
    · intro h
      obtain ⟨hcurrent, hdefault⟩ := h hdirectory
      exact ⟨(hfirst P).mpr hcurrent, fun hremovable _ => hdefault hremovable⟩
  · rw [hnone]
    exact ⟨fun _ h => absurd h hdirectory, fun _ => List.forall_mem_nil _⟩

end Removals

section Main

variable {o} {opts} {b : Browser}

variable {selected : Selected}

theorem removed_settleSeed (h : ¬ (opts.mnemonic ≠ [] ∧ o.seed.any (· ≠ []) = true ∧
      sameWords (o.seed.getD []) opts.mnemonic = false ∧ o.overwrites = false ∧
      decideOrphanWipe o.peek.peek opts.storageScope selected.source = .wipe)) :
    (settleSeed o opts selected b).2.removed = b.removed := by
  have hadopt : (adoptFile opts selected b).removed = b.removed := by
    unfold adoptFile
    split_ifs
    · exact removed_rememberFilename _ _ _
    · rfl
  unfold settleSeed
  by_cases hmnemonic : opts.mnemonic = []
  · rw [if_pos hmnemonic]
    split_ifs <;> rfl
  · rw [if_neg hmnemonic]
    by_cases hseeded : o.seed.any (· ≠ []) = true
    · rw [if_pos hseeded]
      split_ifs with hsame hoverwrites
      · exact hadopt
      · rfl
      · unfold handleOrphan
        split
        · unfold installMnemonicInFreshFile
          simp only [Bool.false_eq_true, if_false]
          split_ifs <;> exact removed_rotateFilename _ _ _
        · rfl
        · rfl
        · rename_i hwipe
          exact absurd ⟨hmnemonic, hseeded, Bool.eq_false_of_not_eq_true hsame,
            Bool.eq_false_of_not_eq_true hoverwrites, hwipe⟩ h
    · rw [if_neg hseeded]
      split_ifs
      · exact hadopt
      · rfl

theorem removed_settleSeed_of_wipe (hmnemonic : opts.mnemonic ≠ [])
    (hseeded : o.seed.any (· ≠ []) = true)
    (hdiffers : sameWords (o.seed.getD []) opts.mnemonic = false) (hkept : o.overwrites = false)
    (hwipe : decideOrphanWipe o.peek.peek opts.storageScope selected.source = .wipe) :
    (settleSeed o opts selected b).2.removed =
      (deleteCurrent o opts selected.filename b).removed := by
  unfold settleSeed
  rw [if_neg hmnemonic, if_pos hseeded, hdiffers, hkept]
  unfold handleOrphan
  rw [hwipe]
  unfold installMnemonicInFreshFile
  simp only [Bool.false_eq_true, if_false, if_true]
  split_ifs <;> exact removed_rotateFilename _ _ _

theorem removed_openWallet (hopens : openSelected o = .ok ()) :
    (openWallet o opts selected b).2.removed = (settleSeed o opts selected b).2.removed := by
  unfold openWallet
  rw [hopens]
  dsimp only
  split
  · rfl
  · split_ifs <;> rfl

theorem removed_openWallet_of_not (hopens : openSelected o ≠ .ok ()) :
    (openWallet o opts selected b).2.removed = b.removed := by
  unfold openWallet
  split
  · rfl
  · rename_i heq
    exact absurd heq hopens

/-- The state in which the selected file is opened. -/
def receipted (o : Outcomes) (opts : Options) (b : Browser) : Browser :=
  match (selectFile o opts b).1.rollback with
  | some (oldFilename, request) => writeBrowserWalletRecoveryJournal o opts.storageScope
      (recoveryReceipt o (selectFile o opts b).1.filename oldFilename request)
      (selectFile o opts b).2
  | none => (selectFile o opts b).2

theorem removed_receipted : (receipted o opts b).removed = b.removed := by
  unfold receipted
  split
  · rw [removed_writeBrowserWalletRecoveryJournal, removed_selectFile]
  · exact removed_selectFile _ _ _

theorem storedFilename_receipted (hnew : ∀ n, freshFilename o n ≠ legacyFilename b) :
    (getStoredFilenameEntry o opts.storageScope (receipted o opts b)).1 =
      (selectFile o opts b).1.filename := by
  refine Eq.trans (storedFilename_congr ?_ ?_ ?_) (storedFilename_selectFile hnew)
  all_goals
    unfold receipted writeBrowserWalletRecoveryJournal
    split
    · split_ifs <;> rfl
    · rfl

theorem removed_createRealWallet (havailable : o.available = true)
    (hreceipt : (selectFile o opts b).1.rollback.isSome → o.keepsReceipt = true) :
    (createRealWallet o opts b).2.removed =
      (openWallet o opts (selectFile o opts b).1 (receipted o opts b)).2.removed := by
  unfold createRealWallet receipted
  rw [if_pos havailable]
  dsimp only
  cases hrollback : (selectFile o opts b).1.rollback with
  | none => rfl
  | some rollback =>
    obtain ⟨oldFilename, request⟩ := rollback
    rw [hrollback] at hreceipt
    dsimp only
    rw [if_pos (hreceipt rfl)]
    split
    · rfl
    · exact removed_putBack _ _ _ _

theorem removed_of_not (h : ¬ (o.available = true ∧
    ((selectFile o opts b).1.rollback.isSome → o.keepsReceipt = true))) :
    (createRealWallet o opts b).2.removed = b.removed := by
  unfold createRealWallet
  by_cases havailable : o.available = true
  · rw [if_pos havailable]
    dsimp only
    cases hrollback : (selectFile o opts b).1.rollback with
    | none => exact absurd ⟨havailable, fun h => by rw [hrollback] at h; cases h⟩ h
    | some rollback =>
      obtain ⟨oldFilename, request⟩ := rollback
      dsimp only
      rw [if_neg fun hkeeps => h ⟨havailable, fun _ => hkeeps⟩]
      exact (removed_putBack _ _ _ _).trans
        ((removed_writeBrowserWalletRecoveryJournal _ _ _ _).trans (removed_selectFile _ _ _))
  · rw [if_neg havailable]

/-- For every run of `createRealWallet`: what it removes is the file it had opened, after that was
found empty, if and only if, should the run come to delete its file, `fedimint.db` is that file or
is not removed, and where the file is removed its balance was read as zero or its open failed for
want of a client.  The random names are taken to be new. -/
theorem removals_confirmed_iff (hnone : b.removed = [])
    (hnew : ∀ n, freshFilename o n ≠ legacyFilename b) :
    (∀ r ∈ (createRealWallet o opts b).2.removed, r.name = r.opened ∧ r.peek.ConfirmsEmpty) ↔
      (ReachesWipe o opts b →
        (o.removable defaultFilename = true →
          (selectFile o opts b).1.filename = defaultFilename) ∧
        (o.removable (selectFile o opts b).1.filename = true → o.peek.ConfirmsEmpty)) := by
  have hvacuous : (createRealWallet o opts b).2.removed = [] → ¬ ReachesWipe o opts b →
      ((∀ r ∈ (createRealWallet o opts b).2.removed, r.name = r.opened ∧ r.peek.ConfirmsEmpty) ↔
        (ReachesWipe o opts b → (o.removable defaultFilename = true →
          (selectFile o opts b).1.filename = defaultFilename) ∧
        (o.removable (selectFile o opts b).1.filename = true → o.peek.ConfirmsEmpty))) := by
    intro hnothing hnot
    rw [hnothing]
    exact ⟨fun _ hreach => absurd hreach hnot, fun _ => List.forall_mem_nil _⟩
  by_cases hruns : o.available = true ∧
      ((selectFile o opts b).1.rollback.isSome → o.keepsReceipt = true)
  · have hremoved := removed_createRealWallet hruns.1 hruns.2
    by_cases hopens : openSelected o = .ok ()
    · rw [removed_openWallet hopens] at hremoved
      by_cases hwipe : opts.mnemonic ≠ [] ∧ o.seed.any (· ≠ []) = true ∧
          sameWords (o.seed.getD []) opts.mnemonic = false ∧ o.overwrites = false ∧
          decideOrphanWipe o.peek.peek opts.storageScope (selectFile o opts b).1.source = .wipe
      · obtain ⟨hmnemonic, hseeded, hdiffers, hkept, hempty⟩ := hwipe
        rw [hremoved, removed_settleSeed_of_wipe hmnemonic hseeded hdiffers hkept hempty,
          forall_deleteCurrent (removed_receipted.trans hnone) (storedFilename_receipted hnew)]
        constructor
        · intro h hreach
          obtain ⟨hcurrent, hdefault⟩ := h hreach.directory
          exact ⟨fun hremovable => (hdefault hremovable).1.symm,
            fun hremovable => (hcurrent hremovable).2⟩
        · intro h hdirectory
          obtain ⟨hdefault, hconfirmed⟩ :=
            h ⟨hruns.1, hruns.2, hopens, hmnemonic, hseeded, hdiffers, hkept, hempty, hdirectory⟩
          refine ⟨fun hremovable => ⟨rfl, hconfirmed hremovable⟩, fun hremovable => ?_⟩
          have hsame := hdefault hremovable
          exact ⟨hsame.symm, hconfirmed (hsame.symm ▸ hremovable)⟩
      · refine hvacuous (hremoved.trans ((removed_settleSeed hwipe).trans
          (removed_receipted.trans hnone))) fun hreach => hwipe ?_
        exact ⟨hreach.mnemonic, hreach.seeded, hreach.differs, hreach.kept, hreach.empty⟩
    · exact hvacuous (hremoved.trans ((removed_openWallet_of_not hopens).trans
        (removed_receipted.trans hnone))) fun hreach => hopens hreach.opens
  · exact hvacuous ((removed_of_not hruns).trans hnone)
      fun hreach => hruns ⟨hreach.available, hreach.receipt⟩

/-! ### An empty file of a scope -/

/-- The names that are drawn, and the entries there are: a file of a scope and `fedimint.db`. -/
def sampleOutcomes : Outcomes where
  randomId n := toString n
  removable name := name = "chama-fedimint-old.db" || name = defaultFilename
  seed := some ["abandon"]
  peek := .read 0

def sampleBrowser (name : String) : Browser where
  names := OrderedMap.empty.set (filenameStorageKey ++ ":npub") name

def sampleOptions : Options where
  mnemonic := ["zoo"]
  storageScope := some "npub"

/-- The file of the scope was found empty, and `fedimint.db` is deleted with it. -/
theorem default_file_removed :
    ¬ ∀ r ∈ (createRealWallet sampleOutcomes sampleOptions
      (sampleBrowser "chama-fedimint-old.db")).2.removed, r.name = r.opened ∧
        r.peek.ConfirmsEmpty := by
  have hother : ((createRealWallet sampleOutcomes sampleOptions
      (sampleBrowser "chama-fedimint-old.db")).2.removed.any fun r =>
        r.name = defaultFilename && r.opened = "chama-fedimint-old.db") = true := by
    decide +kernel
  obtain ⟨r, hr, hnames⟩ := List.any_eq_true.mp hother
  obtain ⟨hname, hopened⟩ := Bool.and_eq_true_iff.mp hnames
  intro h
  have hsame := (h r hr).1
  rw [of_decide_eq_true hname, of_decide_eq_true hopened] at hsame
  exact absurd hsame (by decide)

/-- Where the file of the scope is `fedimint.db` itself, the run removes it alone. -/
theorem removals_confirmed_sample :
    (createRealWallet sampleOutcomes sampleOptions (sampleBrowser defaultFilename)).2.removed ≠ [] ∧
    ∀ r ∈ (createRealWallet sampleOutcomes sampleOptions (sampleBrowser defaultFilename)).2.removed,
      r.name = r.opened ∧ r.peek.ConfirmsEmpty := by
  have hnew : ∀ n, freshFilename sampleOutcomes n ≠
      legacyFilename (sampleBrowser defaultFilename) := by
    intro n heq
    have hlegacy : legacyFilename (sampleBrowser defaultFilename) = defaultFilename := by
      decide +kernel
    have hfirst := congrArg (fun name => name.toList.head?) (heq.trans hlegacy)
    unfold freshFilename at hfirst
    simp only [String.toList_append] at hfirst
    cases hfirst
  refine ⟨fun hnone => ?_,
    (removals_confirmed_iff rfl hnew).mpr fun _ => ⟨fun _ => ?_, fun _ => rfl⟩⟩
  · have hlength : (createRealWallet sampleOutcomes sampleOptions
        (sampleBrowser defaultFilename)).2.removed.length = 1 := by decide +kernel
    rw [hnone] at hlength
    cases hlength
  · decide +kernel

end Main

end WalletFile

end ChamaEscrow
