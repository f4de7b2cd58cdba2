import ChamaEscrow.Client.EventContent
import ChamaEscrow.Client.RawEvents
import ChamaEscrow.Library.Program

/-!
# Loads of a trade

How a client rebuilds a trade from its relays (`loadEscrowAttempt`, `escrow-client.ts`), what the
live paths do to the trade meanwhile, and the durable record of its raw events
(`escrow-event-cache.ts`).  A load reads the state it holds and the raw events of its hot map, asks
the relays for what is newer, replays the union, and writes the state, the hot map and the record.

The world is what one client holds of one trade.  The record is written in transactions that land
later, in any order, or not at all.
-/

namespace ChamaEscrow

open Js Library EventContent

namespace EventContent.SignedEvent

/-- `event.id`. -/
def id (e : SignedEvent) : String := e.raw.id

def isChat (e : SignedEvent) : Bool := e.kind = EscrowEventKind.chat.number

end EventContent.SignedEvent

deriving instance DecidableEq for NostrEvent

namespace TradeLoad

/-! ### Lists of raw events -/

def byId (events : List SignedEvent) : OrderedMap String SignedEvent :=
  OrderedMap.empty.setAll (events.map fun e => (e.id, e))

def mergeRawEventsById (primary secondary : List SignedEvent) : List SignedEvent :=
  (byId (primary ++ secondary)).entries.map Prod.snd

def dedupFrom : List String → List SignedEvent → List SignedEvent
  | _, [] => []
  | seen, e :: rest =>
    if e.id ∈ seen then dedupFrom seen rest else e :: dedupFrom (e.id :: seen) rest
termination_by structural _ events => events

/-- `dedupRawEvents`, and `dedupEventsById`. -/
def dedupRawEvents (events : List SignedEvent) : List SignedEvent := dedupFrom [] events

/-- `compactHotRawEvents`: the hot map keeps no chat. -/
def compactHotRawEvents (events : List SignedEvent) : List SignedEvent :=
  dedupRawEvents (events.filter fun e => !e.isChat)

/-- `escrowDeltaSince`: the newest time that is held, with an overlap unless an event of that time
is heavy. -/
def escrowDeltaSince (events : List SignedEvent) : Option JsNumber :=
  let newest := events.foldl (fun newest e =>
    if e.raw.createdAt.isFinite then JsNumber.max newest e.raw.createdAt else newest) (.ofInt (-1))
  if newest < 0 then none
  else
    let newestIsHeavy := events.any fun e => e.raw.createdAt = newest
      && (e.isChat || heavyCursorEventBytes < unitCount e.content.text)
    some (if newestIsHeavy then newest + 1 else JsNumber.max 0 (newest - 2))

variable {e : SignedEvent}

variable {primary secondary : List SignedEvent}

theorem mem_of_mem_merge
    (h : e ∈ mergeRawEventsById primary secondary) : e ∈ primary ∨ e ∈ secondary := by
  obtain ⟨⟨id, e⟩, hentry, rfl⟩ := List.mem_map.mp h
  have hvalue := (OrderedMap.get_eq_some_iff _ _ _).mpr hentry
  rcases OrderedMap.get_setAll_cases hvalue with hmem | hget
  · obtain ⟨e', he', heq⟩ := List.mem_map.mp hmem
    cases heq
    exact List.mem_append.mp he'
  · cases hget

theorem exists_mem_merge (h : e ∈ primary ∨ e ∈ secondary) :
    ∃ e' ∈ mergeRawEventsById primary secondary, e'.id = e.id := by
  have hkey : e.id ∈ ((primary ++ secondary).map fun e => (e.id, e)).map Prod.fst := by
    rw [List.map_map]
    exact List.mem_map.mpr ⟨e, List.mem_append.mpr h, rfl⟩
  obtain ⟨e', he'⟩ :=
    OrderedMap.exists_get_setAll (m := (.empty : OrderedMap String SignedEvent)) (Or.inl hkey)
  refine ⟨e', List.mem_map.mpr ⟨(e.id, e'), (OrderedMap.get_eq_some_iff _ _ _).mp he', rfl⟩, ?_⟩
  rcases OrderedMap.get_setAll_cases he' with hmem | hget
  · obtain ⟨e'', -, heq⟩ := List.mem_map.mp hmem
    obtain ⟨hid, rfl⟩ := Prod.mk.inj heq
    exact hid
  · cases hget

variable {events : List SignedEvent}

theorem mem_of_mem_dedup {seen : List String} (h : e ∈ dedupFrom seen events) : e ∈ events := by
  induction events generalizing seen with
  | nil => exact h
  | cons first rest ih =>
    rw [dedupFrom] at h
    split_ifs at h
    · exact List.mem_cons_of_mem _ (ih h)
    · rcases List.mem_cons.mp h with rfl | h
      · exact List.mem_cons_self
      · exact List.mem_cons_of_mem _ (ih h)

theorem exists_mem_dedup {seen : List String}
    (h : e ∈ events) (hseen : e.id ∉ seen) : ∃ e' ∈ dedupFrom seen events, e'.id = e.id := by
  induction events generalizing seen with
  | nil => cases h
  | cons first rest ih =>
    rw [dedupFrom]
    by_cases hid : e.id = first.id
    · rw [if_neg (hid ▸ hseen)]
      exact ⟨first, List.mem_cons_self, hid.symm⟩
    · rcases List.mem_cons.mp h with rfl | h
      · exact absurd rfl hid
      · split_ifs
        · exact ih h hseen
        · obtain ⟨e', he', heq⟩ := ih h fun hmem => (List.mem_cons.mp hmem).elim hid hseen
          exact ⟨e', List.mem_cons_of_mem _ he', heq⟩

/-! ### Missing predecessors -/

def belongsToEscrow (escrowId : String) (e : SignedEvent) : Bool :=
  (EscrowEventKind.all.any fun kind => kind.number = e.kind)
    && (e.raw.tags.find? fun tag => tag[0]? = some "d").bind (fun tag => tag[1]?) = some escrowId

def usablePredecessors (found : List SignedEvent) (wanted : List String) (escrowId : String) :
    List SignedEvent :=
  found.filter fun e => e.id ∈ wanted && belongsToEscrow escrowId e

def maxPredecessorIds : ℕ := 20

/-- `missingPredecessorIds`: the predecessor of the event that the replay failed on comes first. -/
def missingPredecessorIds (events : List SignedEvent) (first : Option String)
    (asked : List String) : List String :=
  let consider (e : SignedEvent) : Option String :=
    if e.kind = EscrowEventKind.create.number ∨ e.isChat then none
    else (getPrevEventId e.raw.tags).filter fun prev =>
      isLowerHex 64 prev && !(events.any fun other => other.id = prev) && prev ∉ asked
  let failed := (truthyKey first).bind fun id => events.find? fun e => e.id = id
  ((failed.bind consider).toList ++ events.filterMap consider).eraseDups.take maxPredecessorIds

/-! ### Downgrades -/

def statusProgressRank : EscrowStatus → ℕ
  | .created => 0
  | .locked => 1
  | .approved => 2
  | .claimed => 3
  | _ => 4

def releaseEventId (s : EscrowState) : Option String :=
  s.lock.withheld.bind fun withheld => withheld.releaseEventId

/-- Whether a step on the LOCK that one state names is not the one of another. -/
def losesStep (current incoming : Option String) : Bool :=
  (truthyKey current).isSome && current ≠ incoming

def refusesLock (current : EscrowState) (incoming : Replayed) : Bool :=
  incoming.rejectedLocks.any fun row => current.hasEvent row.event.id

def isPartialReplayDowngrade (current : Option EscrowState) (incoming : Replayed) : Bool :=
  match current with
  | none => false
  | some current =>
    if refusesLock current incoming then false
    else if incoming.state.status.isTerminal then false
    else if statusProgressRank incoming.state.status < statusProgressRank current.status then true
    else if incoming.state.status ≠ current.status then false
    else if current.eventChain.any fun e => !incoming.state.hasEvent e.id then true
    else losesStep current.lock.acceptEventId incoming.state.lock.acceptEventId
      || losesStep (releaseEventId current) (releaseEventId incoming.state)

def reseededChat (current : Option EscrowState) (incoming : EscrowState) :
    List ParsedEscrowEvent :=
  let missing := (current.map EscrowState.chatMessages).getD [] |>.filter fun m =>
    !(incoming.chatMessages.any fun other => other.id = m.id)
  if missing.isEmpty then incoming.chatMessages
  else (incoming.chatMessages ++ missing).insertionSort fun a b => a.raw.createdAt ≤ b.raw.createdAt

/-! ### What a client holds -/

structure HeldState where
  state : EscrowState
  summary : Bool := false

/-- A transaction on the durable record: `putCachedEvents` replaces it, `appendCachedEvents` adds to
it. -/
inductive CacheWrite
  | put (events : List SignedEvent)
  | append (events : List SignedEvent)

/-- The record after a transaction. -/
def CacheWrite.apply (stored : List SignedEvent) : CacheWrite → List SignedEvent
  | put events => if events.isEmpty then stored else dedupRawEvents events
  | append events => if events.isEmpty then stored else dedupRawEvents (stored ++ events)

/-- What a client holds of a trade: the state, its entry in the hot map, the durable record with the
transactions that are still to land.  `arrived` are the events that the live paths accepted since a
load last read the state. -/
structure TradeWorld where
  held : Option HeldState
  hot : Option (List SignedEvent)
  durable : List SignedEvent := []
  pending : List CacheWrite := []
  arrived : List SignedEvent := []

/-! ### The calls of a load -/

/-- What a load reads, asks for and writes. -/
inductive LoadOp
  | held
  | fetchEscrowEvents (since : Option JsNumber)
  | hasHot
  | getCachedEvents
  | setHotRawEvents (events : List SignedEvent)
  | keepKnown (events : List SignedEvent)
  | beforeDeadline
  | fetchOnce (ids : List String)
  | demote (current : EscrowState)
  | adopt (events : List SignedEvent) (state : EscrowState)

abbrev LoadOp.Reply : LoadOp → Type
  | held => Option EscrowState × List SignedEvent
  | fetchEscrowEvents _ | getCachedEvents | fetchOnce _ => List SignedEvent
  | hasHot | beforeDeadline => Bool
  | _ => Unit

abbrev loadSignature : Signature := ⟨LoadOp, LoadOp.Reply⟩

abbrev LoadProg := Prog loadSignature

def loadCall (op : LoadOp) : LoadProg op.Reply := Prog.invoke (S := loadSignature) op

/-! ### The load -/

/-- A load: who reads, with what context, which trade, and how.  `signed` is the raw event of a
parsed one, content included. -/
structure Loader where
  host : Host
  reader : Reader
  context : SignedEvent → ParseContext
  creator : Option String
  escrowId : String
  repairFromCache : Bool
  fullHistory : Bool
  userAction : Bool
  signed : ParsedEscrowEvent → SignedEvent
  signed_raw : ∀ e, (signed e).raw = e.raw

variable (l : Loader)

def chatRaw (m : ParsedEscrowEvent) : SignedEvent where
  raw := m.raw
  kind := EscrowEventKind.chat.number
  content := ⟨"", .error (.error "Unexpected end of JSON input")⟩

def chainRaws (current : Option EscrowState) : List SignedEvent :=
  (current.map fun s => s.eventChain.map l.signed).getD []

def cursorEvents (current : Option EscrowState) (cached : List SignedEvent) : List SignedEvent :=
  mergeRawEventsById cached ((current.map fun s => s.chatMessages.map chatRaw).getD [])

/-- How a load ends: a state, `null`, or an exception. -/
abbrev LoadResult := Except ReadFault (Option EscrowState)

/-- `runReplay`: a rejection is a failure that may be repaired, anything else leaves the load. -/
def runPass (events : List SignedEvent) : Except ReadFault (Except ValidationError Replayed) :=
  match runReplay l.host l.reader l.context l.creator l.userAction events with
  | .ok replayed => .ok (.ok replayed)
  | .error (.halts (.reject failure)) => .ok (.error failure)
  | .error fault => .error fault

/-- What a repair found: a longer list of events with its replay. -/
abbrev Repaired := Except ReadFault (Option (List SignedEvent × Replayed))

def fetchPredecessors (asked : List String) : (rounds : ℕ) → (candidate : List SignedEvent) →
    (failure : ValidationError) → LoadProg Repaired
  | 0, _, _ => return .ok none
  | rounds + 1, candidate, failure =>
    if failure.code ≠ .missingPredecessor then return .ok none
    else do
      let remaining ← loadCall .beforeDeadline
      let missing := missingPredecessorIds candidate failure.eventId asked
      if !remaining || missing.isEmpty then return .ok none
      else
        let fetched ← loadCall (.fetchOnce missing)
        let found := usablePredecessors fetched missing l.escrowId
        if found.isEmpty then return .ok none
        else
          let candidate := mergeRawEventsById candidate found
          match runPass l candidate with
          | .error fault => return .error fault
          | .ok (.ok replayed) => return .ok (some (candidate, replayed))
          | .ok (.error failure) => fetchPredecessors (asked ++ missing) rounds candidate failure

def predecessorFetchRounds : ℕ := 3

/-- What an explicit open tries when the events do not replay: the durable record, if it was not
read before, and then the relays by id. -/
def repair (raws : List SignedEvent) (failure : ValidationError) (durableTried : Bool) :
    LoadProg Repaired :=
  if !l.repairFromCache then return .ok none
  else if durableTried then fetchPredecessors l [] predecessorFetchRounds raws failure
  else do
    let durable ← loadCall .getCachedEvents
    let merged := mergeRawEventsById raws durable
    if merged.length ≤ raws.length then
      fetchPredecessors l [] predecessorFetchRounds raws failure
    else
      match runPass l merged with
      | .error fault => return .error fault
      | .ok (.ok replayed) => return .ok (some (merged, replayed))
      | .ok (.error failure) => fetchPredecessors l [] predecessorFetchRounds merged failure

def seedFromCache (raws fetched : List SignedEvent) : LoadProg (List SignedEvent × Bool) :=
  if !raws.isEmpty then return (raws, false)
  else do
    if ← loadCall .hasHot then return (raws, false)
    else
      let durable ← loadCall .getCachedEvents
      if durable.isEmpty then return (raws, true)
      else
        loadCall (.setHotRawEvents durable)
        return (mergeRawEventsById durable fetched, true)

/-- What a load does with a replay: it tries again for a tail that the relays may have dropped,
keeps what it holds when the replay is a downgrade, or writes. -/
def settleReplay (again : Option (LoadProg LoadResult)) (current : Option EscrowState)
    (cached fetched raws : List SignedEvent) (replayed : Replayed) : LoadProg LoadResult :=
  let retry := if replayed.state.status.isTrulyTerminal || (!cached.isEmpty && fetched.isEmpty)
    then none else again
  match retry with
  | some again => do
    loadCall (.keepKnown raws)
    again
  | none =>
    if isPartialReplayDowngrade current replayed then do
      loadCall (.keepKnown raws)
      return .ok current
    else do
      let state := { replayed.state with chatMessages := reseededChat current replayed.state }
      loadCall (.adopt raws state)
      return .ok (some state)

/-- One attempt; `again` is the next one. -/
def loadAttempt (again : Option (LoadProg LoadResult)) : LoadProg LoadResult := do
  let (current, hot) ← loadCall .held
  let cached := mergeRawEventsById hot (chainRaws l current)
  let since := if l.fullHistory || l.repairFromCache then none
    else escrowDeltaSince (cursorEvents current cached)
  let fetched ← loadCall (.fetchEscrowEvents since)
  let (raws, durableTried) ← seedFromCache (mergeRawEventsById cached fetched) fetched
  if raws.isEmpty then return .ok none
  else
    match runPass l raws with
    | .error fault => return .error fault
    | .ok (.ok replayed) => settleReplay again current cached fetched raws replayed
    | .ok (.error failure) =>
      match ← repair l raws failure durableTried with
      | .error fault => return .error fault
      | .ok (some (raws, replayed)) => settleReplay again current cached fetched raws replayed
      | .ok none =>
        match current with
        | some s => loadCall (.demote s)
        | none => return .ok none
        return .ok none

/-- `loadEscrowAttempt`, with the retries that are left. -/
def loadEscrowAttempt : (retries : ℕ) → LoadProg LoadResult
  | 0 => loadAttempt l none
  | retries + 1 => loadAttempt l (some (loadEscrowAttempt retries))

def completenessMaxAttempts : ℕ := 2

def loadEscrow : LoadProg LoadResult := loadEscrowAttempt l completenessMaxAttempts

/-! ### What the calls do -/

/-- What a load does not control: the answers, the clock, the storage, and what happens to the trade
meanwhile. -/
inductive TradeChoice
  | done
  | answer (events : List SignedEvent)
  | timedOut
  | crowdedOut
  | received (event : SignedEvent) (parsed : ParsedEscrowEvent)
  | appliedLocally (event : SignedEvent) (parsed : ParsedEscrowEvent)
  | sentChat (event : SignedEvent) (parsed : ParsedEscrowEvent)
  | hotEvicted
  | landed (write : ℕ)
  | failed (write : ℕ)
  | cacheDropped

namespace TradeWorld

/-- `setHotRawEvents`: the map may evict the trade at once. -/
def setHot (w : TradeWorld) (events : List SignedEvent) : TradeChoice → Option (Unit × TradeWorld)
  | .done => some ((), { w with hot := some events })
  | .crowdedOut => some ((), { w with hot := none })
  | _ => none

def begin (w : TradeWorld) (write : CacheWrite) : TradeWorld :=
  { w with pending := w.pending ++ [write] }

def perform (w : TradeWorld) (c : TradeChoice) : (op : LoadOp) → Option (op.Reply × TradeWorld)
  | .held =>
    match c with
    | .done => some ((w.held.map HeldState.state, w.hot.getD []), { w with arrived := [] })
    | _ => none
  | .fetchEscrowEvents _ | .fetchOnce _ =>
    match c with
    | .answer events => some (events, w)
    | _ => none
  | .hasHot =>
    match c with
    | .done => some (w.hot.isSome, w)
    | _ => none
  | .getCachedEvents =>
    match c with
    | .done => some (w.durable, w)
    | .timedOut => some ([], w)
    | _ => none
  | .setHotRawEvents events => w.setHot events c
  | .keepKnown events =>
    w.setHot (compactHotRawEvents (mergeRawEventsById (w.hot.getD []) events)) c
  | .beforeDeadline =>
    match c with
    | .done => some (true, w)
    | .timedOut => some (false, w)
    | _ => none
  | .demote current =>
    match c with
    | .done => some ((), { w with held := some ⟨current, true⟩ })
    | _ => none
  | .adopt events state =>
    setHot ({ w with held := some ⟨state, false⟩ }.begin (.put (dedupRawEvents events)))
      (compactHotRawEvents events) c

/-- A state that the live paths put in the place of the one that was held. -/
def accept (w : TradeWorld) (event : SignedEvent) (state : EscrowState) : TradeWorld :=
  { w with
    held := some ⟨state, w.held.any HeldState.summary⟩
    arrived := w.arrived ++ [event] }

/-- What the live paths append to the record for a chat message: the hot events and the message, the
messages before it having released their ciphertext. -/
def chatWrite (w : TradeWorld) (event : SignedEvent) : CacheWrite :=
  let earlier := (w.held.map fun held => held.state.chatMessages.map chatRaw).getD []
  .append ((dedupRawEvents (mergeRawEventsById (w.hot.getD []) (earlier ++ [event]))).filter
    fun e => !e.isChat || e.content.text ≠ "")

/-- `applyEvent` on what is held, as far as it is accepted. -/
def reduce (host : Host) (w : TradeWorld) (event : SignedEvent) (parsed : ParsedEscrowEvent) :
    Option EscrowState :=
  if parsed.raw = event.raw ∧ parsed.kind.number = event.kind then
    (applyEvent host (w.held.map HeldState.state) parsed).toOption
  else none

/-- How the trade changes between two calls of a load. -/
def drift (host : Host) (w : TradeWorld) : TradeChoice → Option TradeWorld
  -- `handleIncomingEvent`, from where it applies what it has opened and parsed.
  | .received event parsed =>
    if event.isChat then
      if w.held.all fun held => held.state.chatMessages.any fun m => m.id = event.id then none
      else (w.reduce host event parsed).map fun state =>
        (w.accept event state).begin (w.chatWrite event)
    -- A CREATE of a trade that is not held is left to a load.
    else if w.held.isNone then none
    else (w.reduce host event parsed).map fun state =>
      let hotChain := compactHotRawEvents (w.hot.getD [] ++ [event])
      { w.accept event state with hot := some hotChain }.begin (.append hotChain)
  | .appliedLocally event parsed =>
    (w.reduce host event parsed).map fun state =>
      { w.accept event state with hot := some (w.hot.getD [] ++ [event]) }
  -- The local path of `sendChat`.
  | .sentChat event parsed =>
    if event.isChat && w.held.isSome then (w.reduce host event parsed).map fun state =>
      (w.accept event state).begin (w.chatWrite event)
    else none
  | .hotEvicted => some { w with hot := none }
  | .landed i => w.pending[i]?.map fun write =>
    { w with durable := write.apply w.durable, pending := w.pending.eraseIdx i }
  | .failed i => some { w with pending := w.pending.eraseIdx i }
  -- `maybeEvict` and `clearEventCache`.
  | .cacheDropped => some { w with durable := [] }
  | _ => none

end TradeWorld

def tradePlatform (host : Host) : Platform where
  toSignature := loadSignature
  World := TradeWorld
  Choice := TradeChoice
  perform op w c := w.perform c op
  drift w c := w.drift host c

end TradeLoad

end ChamaEscrow
