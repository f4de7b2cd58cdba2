import ChamaEscrow.Engine.StateMachine

/-!
# Replay

`replayEventChain` (`state-machine.ts`): a trade's state from the events a client has read.  Replay
chooses the CREATE that roots the trade (`selectTradeRoot`), sets aside what the refused-lock rules
take back (`refusedLockSteps`), and folds the rest through `applyEvent`.  A rejected event is either
noted and skipped or ends the replay; `verdict` decides which.

The notes and the rejected LOCKs that replay keeps with the state are `ReplayNote` and
`RejectedLock`; no rule of the reducer reads them, so they stand beside the state in `Replayed`.
-/

namespace ChamaEscrow

open Js Library

variable (host : Host)

/-! ### Notes -/

inductive NoteCode
  | rejected (code : ErrorCode)
  | cancelledBeforeLock
  | withdrawnBeforeAccept
  | cancelAfterAccept
  | foreignCreate
  deriving DecidableEq

/-- An event that replay set aside. -/
structure ReplayNote where
  eventId : String
  kind : EscrowEventKind
  code : NoteCode
  message : String
  benign : Bool := false

/-- A LOCK that was refused, kept for its funder's recovery. -/
structure RejectedLock where
  event : ParsedEscrowEvent
  code : NoteCode

structure Replayed where
  state : EscrowState
  replayNotes : List ReplayNote
  rejectedLocks : List RejectedLock

/-! ### The root of a trade -/

def isCreate (event : ParsedEscrowEvent) : Bool := event.kind = .create

/-- `isRotationRound`: a chained rotation round, which any sealed member may publish. -/
def isRotationRound (event : ParsedEscrowEvent) : Bool :=
  match event.payload with
  | .create p =>
    p.category = "chama" &&
      (match p.chamaCircle with
        | .terms circle => circle.pot = .rotationV2 && 2 ≤ circle.roundIndex
        | _ => false)
  | _ => false

def isValidRound (event : ParsedEscrowEvent) : Except JsError Bool :=
  match event.payload with
  | .create p =>
    if isRotationRound event then do
      let problem ← chamaCreateError host p event.escrowId event.pubkey event.timestamp
        event.chamaParent event.chamaWitness event.chamaCycle (eventIsSim event.raw)
      return problem.isNone
    else .ok false
  | _ => .ok false

def filterEvents (check : ParsedEscrowEvent → Except JsError Bool) :
    List ParsedEscrowEvent → Except JsError (List ParsedEscrowEvent)
  | [] => .ok []
  | e :: rest => do
    let keep ← check e
    let kept ← filterEvents check rest
    return if keep then e :: kept else kept

/-- Whether an event sorts before another by time, then by id. -/
def earlier (a b : ParsedEscrowEvent) : Bool :=
  a.timestamp < b.timestamp || (!(b.timestamp < a.timestamp) && textLe a.id b.id)

/-- The events to replay, and the CREATEs that belong to someone else's key. -/
structure RootSelection where
  events : List ParsedEscrowEvent
  ignored : List ParsedEscrowEvent

/-- The selection of a list with valid rotation rounds: they come first, the earliest at the
head. -/
def rootAtRounds (events creates valid : List ParsedEscrowEvent) : RootSelection where
  events := (valid.insertionSort fun a b => earlier a b = true) ++ events.filter fun e =>
      !isCreate e
  ignored := creates.filter fun e => (isValidRound host e).toOption ≠ some true

def rootAtCreator (events creates : List ParsedEscrowEvent) (creator : Option String) :
    Step RootSelection :=
  match truthyKey (creator.map toLowerCase) with
  | some by_ => do
    rejectIf ((creates.filter fun e => toLowerCase e.pubkey ≠ by_).length = creates.length)
      (.reject ⟨.creatorNotFound, "No CREATE for this trade is signed by its expected creator",
        none⟩)
    return {
      events := events.filter fun e => !(isCreate e && toLowerCase e.pubkey ≠ by_)
      ignored := creates.filter fun e => toLowerCase e.pubkey ≠ by_ }
  | none => do
    rejectIf (1 < (creates.map fun e => toLowerCase e.pubkey).dedup.length)
      (.reject ⟨.conflictingCreates, "More than one key has published a CREATE under this trade id",
        none⟩)
    return ⟨events, []⟩

/-- `selectTradeRoot`: which CREATE may root a replay. -/
def selectTradeRoot (events : List ParsedEscrowEvent) (creator : Option String) :
    Step RootSelection :=
  let creates := events.filter isCreate
  if creates.isEmpty then .ok ⟨events, []⟩
  else do
    let valid ← js (filterEvents (isValidRound host) creates)
    if valid.isEmpty then do
      rejectIf (creates.all isRotationRound = true) (.reject ⟨.invalidChama,
        "No rotation CREATE is valid for the sealed cycle", none⟩)
      rootAtCreator events creates creator
    else return rootAtRounds host events creates valid

/-! ### Refused locks -/

def lockSteps (events : List ParsedEscrowEvent) : List (ParsedEscrowEvent × LockStepPayload) :=
  events.filterMap fun e =>
    match e.payload with
    | .lockStep p => some (e, p)
    | _ => none

def findLock (events : List ParsedEscrowEvent) (id : String) :
    Option (ParsedEscrowEvent × LockPayload) :=
  events.reverse.findSome? fun e =>
    match e.payload with
    | .lock p => if e.id = id then some (e, p) else none
    | _ => none

/-- What the refused-lock rules take out of a read. -/
structure RefusedSteps where
  withdrawn : List ParsedEscrowEvent := []
  setAside : List String := []
  pinnedCancels : List ParsedEscrowEvent := []

def RefusedSteps.empty : RefusedSteps := { withdrawn := [] }

/-- The LOCK that a step withdraws: a funder's own ecash LOCK with withheld shares, which it replies
to, and which was neither released nor withdrawn before. -/
def withdrawnBy (events : List ParsedEscrowEvent) (released setAside : List String)
    (step : ParsedEscrowEvent) (p : LockStepPayload) : Option ParsedEscrowEvent :=
  if p.step ≠ .withdraw then none
  else
    match findLock events p.lockEventId with
    | some (lock, terms) =>
      if terms.withheldShares = some true ∧ terms.onchain.isNone ∧ lock.id ∉ setAside
          ∧ step.pubkey = lock.pubkey ∧ step.prevEventId = some lock.id ∧ lock.id ∉ released then
        some lock
      else none
    | none => none

def withdrawnLocks (events : List ParsedEscrowEvent) (released : List String) :
    List (ParsedEscrowEvent × LockStepPayload) → RefusedSteps → RefusedSteps
  | [], found => found
  | (step, p) :: rest, found =>
    match withdrawnBy events released found.setAside step p with
    | none => withdrawnLocks events released rest found
    | some lock =>
      let naming := (lockSteps events).filter fun other => other.2.lockEventId = lock.id
      withdrawnLocks events released rest { found with
        withdrawn := found.withdrawn ++ [lock]
        setAside := found.setAside ++ lock.id :: naming.map fun other => other.1.id }

def acceptors (events : List ParsedEscrowEvent) (setAside : List String) : List String :=
  (lockSteps events).filterMap fun (step, p) =>
    if p.step = .accept ∧ step.id ∉ setAside ∧
        (findLock events p.lockEventId).any (fun (lock, terms) => terms.onchain.isNone
          && step.prevEventId = some lock.id && step.pubkey ≠ lock.pubkey) then
      some step.pubkey
    else none

/-- `refusedLockSteps`; `released` is `none` in the probe that ignores withdraws. -/
def refusedLockSteps (events : List ParsedEscrowEvent) (released : Option (List String)) :
    RefusedSteps :=
  let found :=
    match released with
    | none => RefusedSteps.empty
    | some released => withdrawnLocks events released (lockSteps events) .empty
  let accepted := acceptors events found.setAside
  let pinned := events.filter fun e => e.kind = .cancel && e.pubkey ∈ accepted
  { found with
    setAside := found.setAside ++ pinned.map ParsedEscrowEvent.id
    pinnedCancels := pinned }

/-! ### Entitlement -/

def presupposesLock (kind : EscrowEventKind) : Bool :=
  kind = .vote || kind = .resolve || kind = .claim || kind = .periodRelease
    || kind = .settlementStalled

/-- `replayAuthorEntitled`: whether an event's author holds the role that may publish it. -/
def replayAuthorEntitled (state : EscrowState) (event : ParsedEscrowEvent) :
    Except JsError Bool :=
  let seated := getRole state event.pubkey
  if !state.hasLock && presupposesLock event.kind then .ok true
  else
    match event.kind with
    | .lock =>
      match seated.or (getActiveRole state event.pubkey event.timestamp) with
      | none => .ok false
      | some role => .ok ((expectedLocker state).all fun expected => role = expected)
    | .claim => .ok (seated = some .buyer || seated = some .seller)
    | .vote | .resolve =>
      if seated.isSome then .ok true
      else if state.lock.arbiterPoolShare = some true then do
        return (← arbiterVotePriority state event.pubkey).isSome
      else .ok false
    | .cancel | .planStart => .ok (event.pubkey = state.initiator.pubkey)
    | _ => .ok seated.isSome

def sameOnchainTerms (a b : OnchainLockTerms) : Bool :=
  a.address = b.address && a.buyerXonly = b.buyerXonly && a.sellerXonly = b.sellerXonly
    && a.arbiterXonly = b.arbiterXonly && a.funder = b.funder
    && a.refundLockUntil = b.refundLockUntil && a.disputeCsvBlocks = b.disputeCsvBlocks
    && a.network = b.network && a.arbiterBond.sameJson b.arbiterBond
    && a.fundingTxid = b.fundingTxid && a.fundingVout = b.fundingVout
    && a.amountSats = b.amountSats

/-- Whether two on-chain LOCKs differ in their `lockedAt` at most. -/
def sameLockTerms (a b : LockPayload) : Bool :=
  (match a.onchain, b.onchain with
    | some terms, some terms' => sameOnchainTerms terms terms'
    | _, _ => false)
    && a.notesHash.sameJson b.notesHash && a.shares.sameJson b.shares
    && a.sharePolicy.sameJson b.sharePolicy && a.arbiterPoolShare = b.arbiterPoolShare
    && a.substitutionGraceSeconds = b.substitutionGraceSeconds
    && a.withheldShares = b.withheldShares && a.sellerReceivesMsats = b.sellerReceivesMsats
    && a.arbiterFeeMsats = b.arbiterFeeMsats && a.platformFeeMsats.sameJson b.platformFeeMsats
    && a.selectedItems = b.selectedItems && a.buyerPubkey = b.buyerPubkey
    && a.arbiterPubkey = b.arbiterPubkey && a.rest.sameJson b.rest

/-- `redundantOnchainLock`: a repetition of the accepted on-chain LOCK by its author. -/
def redundantOnchainLock (state : EscrowState) (event : ParsedEscrowEvent) : Bool :=
  match state.acceptedLock?, event.payload with
  | some (accepted, terms), .lock p =>
    state.lock.onchain.isSome && accepted.pubkey = event.pubkey && sameLockTerms terms p
  | _, _ => false

/-! ### The verdict on a rejected event -/

/-- What a replay knows about the whole read. -/
structure ReplayContext where
  seatSeekers : List String
  availableIds : List String
  withdrawnIds : List String

structure ReplayProgress where
  state : Option EscrowState := none
  claimants : List String
  withdrawnSkipped : List String := []
  replayNotes : List ReplayNote := []
  rejectedLocks : List RejectedLock := []

/-- What replay does with a rejected event. -/
inductive Verdict
  | fail
  | skip (benign : Bool)
  | skipWithdrawn
  | rejectLock (code : NoteCode) (message : String)

def movesFunds (kind : EscrowEventKind) : Bool :=
  kind = .lock || kind = .claim || kind = .subscribe || kind = .periodRelease

/-- `benignCodes`: the rejections of redundant events. -/
def benignCodes : List ErrorCode :=
  [.alreadyVoted, .alreadyJoined, .alreadySubscribed, .duplicateCreate, .roleTaken,
    .terminalState, .arbiterPoolEmpty, .arbiterNotInPool]

/-- `REPLAY_RULE_BREAKS`: the rejections of a timing or state rule that moves no money. -/
def replayRuleBreaks : EscrowEventKind → List ErrorCode
  | .vote => [.roleMismatch, .sharesNotReleased]
  | .join => [.roleConflict, .orderAlreadyFinalized, .chamaSeatsFixed]
  | _ => []

def repliesWithin (ctx : ReplayContext) (event : ParsedEscrowEvent) : Bool :=
  (truthyKey event.prevEventId).any fun id => id ∈ ctx.availableIds

def repliesOutside (ctx : ReplayContext) (event : ParsedEscrowEvent) : Bool :=
  (truthyKey event.prevEventId).any fun id => id ∉ ctx.availableIds

/-- Whether a rejected event counts as one by a party to the trade. -/
def isEntitled (ctx : ReplayContext) (claimants : List String) (state : EscrowState)
    (event : ParsedEscrowEvent) : Except JsError Bool :=
  if event.pubkey ∈ claimants then .ok true
  else
    let strictLock :=
      match event.payload with
      | .lock p => !state.hasLock || event.pubkey ∈ ctx.seatSeekers
          || !p.notesHash.strictEq state.lock.notesHash
      | _ => false
    if strictLock then .ok true
    else if movesFunds event.kind && repliesOutside ctx event then .ok true
    else replayAuthorEntitled state event

def isCancelledBeforeLock (ctx : ReplayContext) (state : EscrowState) (event : ParsedEscrowEvent)
    (code : ErrorCode) : Except JsError Bool :=
  match event.payload with
  | .lock p =>
    if code = .terminalState ∧ state.status = .cancelled ∧ !state.hasLock then do
      return (← replayAuthorEntitled state event) && p.onchain.isNone && repliesWithin ctx event
        && state.eventChain.any fun e => e.kind = .cancel && e.pubkey = state.initiator.pubkey
          && e.timestamp < event.timestamp
    else .ok false
  | _ => .ok false

def isLapsedOrder (ctx : ReplayContext) (state : EscrowState) (event : ParsedEscrowEvent)
    (code : ErrorCode) : Bool :=
  match event.payload with
  | .lock p => code = .orderNotFinalized && p.onchain.isNone
      && ((state.joinHolds.get (menuSelectorRoleFor state.category)).any fun hold =>
        some hold.eventId = event.prevEventId && hold.joinedAt ≤ event.timestamp
          && hold.expiresAt + joinHoldLockGraceSeconds ≤ event.timestamp)
      && repliesWithin ctx event
  | _ => false

def isAboutWithdrawn (ctx : ReplayContext) (skipped : List String) (state : EscrowState)
    (event : ParsedEscrowEvent) (code : ErrorCode) : Bool :=
  state.status = .created
    && ((truthyKey event.prevEventId).any fun id => id ∈ ctx.withdrawnIds || id ∈ skipped)
    && !state.hasLock && code = .invalidState
    && (event.kind = .vote || event.kind = .resolve || event.kind = .complete)

def resolveVerdict (state : EscrowState) (p : ResolvePayload) (code : ErrorCode)
    (entitled : Bool) : Verdict :=
  if state.resolvedOutcome = some p.outcome ∧ (code = .invalidState ∨ code = .terminalState) then
    .skip true
  else if entitled then .fail
  else .skip false

def advisoryVerdict (state : EscrowState) (event : ParsedEscrowEvent) (code : ErrorCode)
    (entitled : Bool) : Verdict :=
  if code ∈ benignCodes then .skip true
  else if code = .invalidState ∧ (event.kind = .join ∨ (event.kind = .vote ∧ state.hasLock)
      ∨ event.kind = .complete) then .skip true
  else if event.kind = .complete ∧ code = .invalidSettlementProof ∧ state.status = .approved
      ∧ state.lock.onchain.isSome then .skip false
  else if event.kind = .chat then .skip (code = .tradeClosed || code = .terminalState)
  else if event.kind = .premium ∧ code = .notParticipant then .skip false
  else if event.kind = .settlement ∧ code = .notParticipant then .skip false
  else if event.kind = .lockStep then
    .skip (code = .alreadyAccepted || code = .alreadyReleased)
  else if !entitled ∨ code ∈ replayRuleBreaks event.kind then .skip false
  else .fail

/-- What replay does with an event that the reducer rejects on `state`. -/
def verdict (ctx : ReplayContext) (progress : ReplayProgress) (state : EscrowState)
    (event : ParsedEscrowEvent) (error : ValidationError) : Except JsError Verdict := do
  let entitled ← isEntitled ctx progress.claimants state event
  let cancelled ← isCancelledBeforeLock ctx state event error.code
  if cancelled then
    return .rejectLock .cancelledBeforeLock
      "The initiator cancelled before this lock; its notes did not enter escrow"
  else if isLapsedOrder ctx state event error.code then
    return .rejectLock (.rejected error.code) error.message
  else if error.code = .expiryNotInTrade ∧ state.hasLock then return .skip false
  else if isAboutWithdrawn ctx progress.withdrawnSkipped state event error.code then
    return .skipWithdrawn
  else if redundantOnchainLock state event
      ∧ (error.code = .invalidState ∨ error.code = .terminalState) then return .skip true
  else if movesFunds event.kind then return if entitled then .fail else .skip false
  else
    match event.payload with
    | .resolve p => return resolveVerdict state p error.code entitled
    | _ => return advisoryVerdict state event error.code entitled

/-! ### The loop -/

def noteOn (event : ParsedEscrowEvent) (error : ValidationError) (benign : Bool) : ReplayNote where
  eventId := event.id
  kind := event.kind
  code := .rejected error.code
  message := error.message
  benign := benign

/-- The claimants after a rejection: someone whose JOIN found the seat taken is one. -/
def claimantsAfter (claimants : List String) (event : ParsedEscrowEvent)
    (error : ValidationError) : List String :=
  if event.kind = .join ∧ error.code = .roleTaken then event.pubkey :: claimants else claimants

def skipRejected (ctx : ReplayContext) (progress : ReplayProgress) (state : EscrowState)
    (event : ParsedEscrowEvent) (error : ValidationError) : Step ReplayProgress := do
  let decided ← js (verdict ctx progress state event error)
  let progress := { progress with claimants := claimantsAfter progress.claimants event error }
  match decided with
  | .fail => .error (.reject error)
  | .skip benign => return { progress with
      replayNotes := progress.replayNotes ++ [noteOn event error benign] }
  | .skipWithdrawn => return { progress with
      withdrawnSkipped := event.id :: progress.withdrawnSkipped
      replayNotes := progress.replayNotes ++ [noteOn event error false] }
  | .rejectLock code message => return { progress with
      rejectedLocks := progress.rejectedLocks ++ [⟨event, code⟩]
      replayNotes := progress.replayNotes
        ++ [{ eventId := event.id, kind := event.kind, code, message }] }

/-- The progress after an accepted event, whose predecessor has to be in the read when it enters the
chain. -/
def acceptEvent (ctx : ReplayContext) (progress : ReplayProgress) (event : ParsedEscrowEvent)
    (next : EscrowState) : Step ReplayProgress := do
  guardErr (event.kind ≠ .join ∧ repliesOutside ctx event ∧ next.hasEvent event.id)
    .missingPredecessor "A state event's predecessor is missing" event.id
  return { progress with state := some next }

def replayStep (ctx : ReplayContext) (progress : ReplayProgress) (event : ParsedEscrowEvent) :
    Step ReplayProgress :=
  match applyEvent host progress.state event with
  | .ok next => acceptEvent ctx progress event next
  | .error (.throws e) => .error (.throws e)
  | .error (.reject error) =>
    match progress.state with
    -- Only the CREATE meets an empty state, and its rejection ends the replay.
    | none => .error (.reject error)
    | some state => skipRejected ctx progress state event error

def replayLoop (ctx : ReplayContext) (progress : ReplayProgress) (events : List ParsedEscrowEvent) :
    Step ReplayProgress :=
  events.foldlM (replayStep host ctx) progress

/-! ### The bookkeeping after the loop -/

def refusedNotes (refused : RefusedSteps) : List ReplayNote :=
  (refused.withdrawn.map fun e =>
    { eventId := e.id, kind := e.kind, code := .withdrawnBeforeAccept
      message := "The funder took this lock back before its shares were released" })
  ++ refused.pinnedCancels.map fun e =>
    { eventId := e.id, kind := e.kind, code := .cancelAfterAccept
      message := "This person accepted a lock, so their cancel cannot refuse it" }

def ignoredNotes (state : EscrowState) (ignored : List ParsedEscrowEvent) : List ReplayNote :=
  let rotationRoot := state.chamaCircle.any fun circle =>
    circle.pot = .rotationV2 && 2 ≤ circle.roundIndex
  ignored.map fun e =>
    { eventId := e.id
      kind := e.kind
      code := if rotationRoot then .rejected .invalidChama else .foreignCreate
      message :=
        if rotationRoot then
          "A CREATE that does not satisfy the sealed rotation cycle was ignored"
        else "A CREATE under this trade id signed by a different key was ignored" }

/-- The result of a finished loop. -/
def replayed (refused : RefusedSteps) (ignored : List ParsedEscrowEvent)
    (progress : ReplayProgress) : Step Replayed :=
  match progress.state with
  | none => .error (.throws (.typeError "Cannot read properties of null"))
  | some state => .ok {
      state
      replayNotes := progress.replayNotes ++ refusedNotes refused ++ ignoredNotes state ignored
      rejectedLocks := progress.rejectedLocks
        ++ refused.withdrawn.map fun e => ⟨e, .withdrawnBeforeAccept⟩ }

/-! ### Replay -/

/-- Whether the refused-lock rules are in force for a rooted list. -/
def gatesSteps (root : ParsedEscrowEvent) : Bool :=
  usesWithheldShares root.timestamp &&
    (match root.payload with
      | .create p => p.chamaPolicy = .absent
      | _ => true)

def authorsOf (kind : EscrowEventKind) (events : List ParsedEscrowEvent) : List String :=
  (events.filter fun e => e.kind = kind).map ParsedEscrowEvent.pubkey

def replayRooted (claimants seatSeekers : List String) (rooted : RootSelection)
    (refused : RefusedSteps) : Step Replayed := do
  let pinned := refused.pinnedCancels.map ParsedEscrowEvent.id
  let ctx : ReplayContext := {
    seatSeekers
    availableIds := rooted.events.map ParsedEscrowEvent.id
    withdrawnIds := refused.setAside.filter fun id => id ∉ pinned }
  let events := rooted.events.filter fun e => e.id ∉ refused.setAside
  let progress ← replayLoop host ctx { claimants } events
  replayed refused rooted.ignored progress

def refusedSteps (released : List ParsedEscrowEvent → Step (Option (List String)))
    (root : ParsedEscrowEvent) (events : List ParsedEscrowEvent) : Step RefusedSteps :=
  if gatesSteps root then refusedLockSteps events <$> released events
  else .ok .empty

/-- The replay of a list; `released` tells which LOCKs of the rooted list count as released. -/
def replayWith (creator : Option String)
    (released : List ParsedEscrowEvent → Step (Option (List String)))
    (events : List ParsedEscrowEvent) : Step Replayed :=
  if events.isEmpty then
    .error (.reject ⟨.emptyChain, "Cannot replay empty event chain", none⟩)
  else do
    let rooted ← selectTradeRoot host events creator
    match rooted.events with
    | root :: _ => do
      rejectIf (!isCreate root) (.reject ⟨.missingCreate, "First event in chain must be CREATE",
        none⟩)
      let refused ← refusedSteps released root rooted.events
      replayRooted host (authorsOf .create events) (authorsOf .join events) rooted refused
    | [] => .error (.throws (.typeError "Cannot read properties of undefined (reading 'kind')"))

def replayProbe (creator : Option String) (events : List ParsedEscrowEvent) : Step Replayed :=
  replayWith host creator (fun _ => .ok none) events

def isFundersRelease (events : List ParsedEscrowEvent) (step : ParsedEscrowEvent)
    (p : LockStepPayload) : Bool :=
  p.step = .release && events.any fun l => l.kind = .lock && l.id = p.lockEventId
    && l.pubkey = step.pubkey

def probedReleases (creator : Option String) (events : List ParsedEscrowEvent) :
    Step (List String) :=
  if (lockSteps events).any fun step => step.2.step = .withdraw then
    match replayProbe host creator events with
    | .ok probe =>
      .ok (if probe.state.lock.withheld.any fun w => (truthyKey w.releaseEventId).isSome then
        probe.state.lockEvent?.toList.map ParsedEscrowEvent.id else [])
    | .error (.reject _) =>
      .ok (((lockSteps events).filter fun (step, p) => isFundersRelease events step p).map
        fun step => step.2.lockEventId)
    | .error (.throws e) => .error (.throws e)
  else .ok []

/-- The LOCKs of a rooted list that count as released: those of the probe, and those a funder
released in reply to an event that the read does not hold. -/
def releasedLocks (creator : Option String) (events : List ParsedEscrowEvent) :
    Step (Option (List String)) := do
  let probed ← probedReleases host creator events
  let orphaned := (lockSteps events).filter fun (step, p) =>
    isFundersRelease events step p
      && !((truthyKey step.prevEventId).any fun id => events.any fun e => e.id = id)
  return some (probed ++ orphaned.map fun step => step.2.lockEventId)

def replayEventChain (events : List ParsedEscrowEvent) (creator : Option String) : Step Replayed :=
  replayWith host creator (releasedLocks host creator) events

end ChamaEscrow
