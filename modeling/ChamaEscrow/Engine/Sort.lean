import ChamaEscrow.Engine.Replay

/-!
# The order of a chain

`sortEventChain` (`event-parser.ts`): the order in which a client replays the events it has read.
State events come in the order of their references, by time among those that are free; the auxiliary
ones are then inserted by time, the payouts that a stalled request depends on are moved before it,
and the proof that a COMPLETE links to before that COMPLETE.

Events are told apart by their ids, as the signed events of one read are.
-/

namespace ChamaEscrow

open Js Library

/-! ### State events -/

/-- Whether an event is auxiliary: it carries no reference, and never enters the chain. -/
def isAux (e : ParsedEscrowEvent) : Bool :=
  e.kind = .chat || e.kind = .premium || e.kind = .settlement

def EscrowEventKind.priority : EscrowEventKind → ℕ
  | .create => 0
  | .subscribe => 2
  | .join => 4
  | .lock => 6
  | .lockStep => 7
  | .vote | .periodRelease => 8
  | .resolve => 10
  | .settlementStalled => 11
  | .claim => 12
  | .complete => 14
  | .cancel => 16
  | _ => 198

/-- `compare(a, b) <= 0`: by time, then by priority, then by id. -/
def comesFirst (a b : ParsedEscrowEvent) : Bool :=
  a.timestamp < b.timestamp || (!(b.timestamp < a.timestamp)
    && (a.kind.priority < b.kind.priority
      || (a.kind.priority = b.kind.priority && textLe a.id b.id)))

/-- Events in the order of `compare`. -/
def sortByCompare (events : List ParsedEscrowEvent) : List ParsedEscrowEvent :=
  events.insertionSort fun a b => comesFirst a b = true

/-- Whether an event's predecessor, if it is one of these, was placed already. -/
def isReady (remaining : List ParsedEscrowEvent) (e : ParsedEscrowEvent) : Bool :=
  (truthyKey e.prevEventId).all fun id => !remaining.any fun other => other.id = id

/-- The next state event: a CREATE before any other that is ready, and the first of a cycle when
none is. -/
def nextState (remaining : List ParsedEscrowEvent) : Option ParsedEscrowEvent :=
  let ready := sortByCompare (remaining.filter (isReady remaining))
  ((ready.find? isCreate).or ready.head?).or (sortByCompare remaining).head?

def placeStates : (rounds : ℕ) → (remaining : List ParsedEscrowEvent) → List ParsedEscrowEvent
  | 0, _ => []
  | rounds + 1, remaining =>
    match nextState remaining with
    | none => []
    | some next => next :: placeStates rounds (remaining.filter fun e => e.id ≠ next.id)

def stateEvents (events : List ParsedEscrowEvent) : List ParsedEscrowEvent :=
  let byId := (events.filter fun e => !isAux e).foldl (fun map e => map.set e.id e)
    (OrderedMap.empty : OrderedMap String ParsedEscrowEvent)
  byId.entries.map Prod.snd

/-! ### Auxiliary events -/

/-- An auxiliary event inserted after the last event that is dated no later, at the end when there
is none. -/
def insertAux (all : List ParsedEscrowEvent) (aux : ParsedEscrowEvent) :
    List ParsedEscrowEvent :=
  let after := (all.reverse.takeWhile fun e => !(e.timestamp ≤ aux.timestamp)).reverse
  let before := all.take (all.length - after.length)
  if before.isEmpty then all ++ [aux] else before ++ aux :: after

/-- `message` taken out of its place and put directly before `target`. -/
def moveBefore (target : ParsedEscrowEvent) (all : List ParsedEscrowEvent)
    (message : ParsedEscrowEvent) : List ParsedEscrowEvent :=
  let rest := all.eraseP fun e => e.id = message.id
  rest.takeWhile (fun e => e.id ≠ target.id) ++ message ::
    rest.dropWhile fun e => e.id ≠ target.id

def gatherPayouts (all : List ParsedEscrowEvent) (request : ParsedEscrowEvent) :
    List ParsedEscrowEvent :=
  let prior := all.filter fun e => e.kind = .settlement && e.timestamp ≤ request.timestamp
  (prior.insertionSort fun a b => earlier a b = true).foldl (moveBefore request) all

def gatherProof (all : List ParsedEscrowEvent) (complete : ParsedEscrowEvent) :
    List ParsedEscrowEvent :=
  let proofId := truthyKey ((complete.raw.tags.find? fun tag => tag.head? = some "settlement").bind
    fun tag => tag[1]?)
  match all.find? fun e => some e.id = proofId && e.kind = .settlement with
  | some proof => moveBefore complete all proof
  | none => all

def sortEventChain (events : List ParsedEscrowEvent) : List ParsedEscrowEvent :=
  let states := stateEvents events
  let interleaved := (events.filter isAux).foldl insertAux (placeStates states.length states)
  let requests := interleaved.filter fun e => e.kind = .settlementStalled
  let gathered := requests.foldl gatherPayouts interleaved
  (gathered.filter fun e => e.kind = .complete).foldl gatherProof gathered

end ChamaEscrow
