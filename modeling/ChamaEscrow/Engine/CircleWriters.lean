import ChamaEscrow.Engine.Circles

/-!
# Circle writers

The three builders of CREATE payloads for circles (`policy.ts`): the next round of a rotation, the
share of a member in a rotation round, and the share of a member in any other round; and the roster
that the last of them reads (`wiring.ts`).

They read of the parent's own CREATE the federation and the fee key; the key, which no rule reads,
is the argument `feePubkey`.
-/

namespace ChamaEscrow

open Js Library

variable (host : Host)

/-! ### The next round -/

def lastRound (rot : Rotation) (circles : List CircleView) : JsNumber :=
  circles.foldl (fun last state =>
    match circleFromEscrow state with
    | none => last
    | some c =>
      if c.pot ≠ .rotationV2 ∨ c.roundIndex < 2 then last
      else if state.id = roundCircleId host rot.round1Id c.roundIndex ∧ last < c.roundIndex then
        c.roundIndex
      else last) 1

def roundStart (round1 : CircleRound) (roundIndex : JsNumber) : JsNumber :=
  round1.roundEndSec + (roundIndex - 2) * (round1.roundEndSec - round1.createdAt)

def roundTerms (rot : Rotation) (roundIndex : JsNumber) : CircleTerms where
  shareMsats := rot.round1.shareMsats
  seatThreshold := JsNumber.ofInt rot.order.length - 1
  seatCap := some (JsNumber.ofInt rot.order.length - 1)
  unlisted := true
  pot := .rotationV2
  fillDeadlineSec := roundStart rot.round1 roundIndex
    + (rot.round1.fillDeadlineSec - rot.round1.createdAt)
  roundEndSec := roundStart rot.round1 roundIndex
    + (rot.round1.roundEndSec - rot.round1.createdAt)
  roundIndex
  prevCircleId := some (if roundIndex = 2 then rot.round1Id
    else roundCircleId host rot.round1Id (roundIndex - 1))

def roundPayload (rot : Rotation) (roundIndex nowSec : JsNumber) (round1State : CircleView)
    (feePubkey : String) : Except JsError CreatePayload := do
  let terms := roundTerms host rot roundIndex
  let communityArbiters ← round1State.communityArbiters.spread
  let bondedArbiters ← (round1State.bondedArbiters.orElse (.arr [])).spread
  return {
    description := round1State.description
    category := "chama"
    chamaCircle := .terms terms
    amountMsats := rot.round1.shareMsats
    mintUrl := rot.round1.mintUrl
    community := truthyKey (some rot.round1.community)
    fed := round1State.fed
    fedPrefix := round1State.fedPrefix
    platformFeeBps := 0
    platformFeePubkey := feePubkey
    arbiterFeeMsats := .num 0
    communityArbiters := .arr communityArbiters
    bondedArbiters := .arr bondedArbiters
    expirySeconds := terms.roundEndSec - nowSec
    createdAt := nowSec }

/-- `nextRotationRoundPayload`: the id and the payload of the round after the last one seen, or the
reason why no round can open. -/
def nextRotationRoundPayload (cycle : ChamaCycleContext) (nowSec : JsNumber) (feePubkey : String) :
    Except JsError (Except String (String × CreatePayload)) :=
  match rotationFromCycle host cycle none with
  | .error reason => .ok (.error reason)
  | .ok rot =>
    let next := lastRound host rot cycle.circles + 1
    let start := roundStart rot.round1 next
    let fillWindow := rot.round1.fillDeadlineSec - rot.round1.createdAt
    if JsNumber.ofInt rot.order.length + 1 < next then .ok (.error "The cycle is complete")
    else if nowSec < start then .ok (.error "The previous round has not ended")
    else if start + fillWindow ≤ nowSec then .ok (.error "The round's fill window has passed")
    else
      match cycle.circles.find? fun st => st.id = rot.round1Id with
      | none => .error (.typeError "Cannot read properties of undefined (reading 'eventChain')")
      | some round1State => do
        let payload ← roundPayload host rot next nowSec round1State feePubkey
        return .ok (roundCircleId host rot.round1Id next, payload)

/-! ### Shares -/

/-- How far the share of a member has come. -/
inductive ShareStatus
  | reserved
  | locked
  | returned
  | refunded
  | paid
  deriving DecidableEq

/-- What a roster keeps of the share of a member. -/
structure CircleShareLock where
  circleId : String
  memberPubkey : String
  status : ShareStatus
  lockedAtSec : Option JsNumber

def EscrowState.shareView (e : EscrowState) : ShareView where
  id := e.id
  chamaPolicy := e.chamaPolicy
  parent := e.parent
  buyer := e.participants.buyer
  lockTimestamp := e.lockEvent?.map ParsedEscrowEvent.timestamp

/-- The status of a share on the roster; `pendingVote` says whether the reader's own vote is still
on its way. -/
def shareStatus (pendingVote : Bool) (e : EscrowState) : ShareStatus :=
  let redeemed := e.status = .claimed ∨ e.status = .completed
  let settled := !pendingVote ∧ e.resolvedOutcome = some .refund
    ∧ (e.status = .approved ∨ redeemed)
  -- APPROVED is still owed: a resolution does not prove the redemption.
  let returned := settled ∧ redeemed
  let paid := e.chamaPolicy = some .shareV2 ∧ e.resolvedOutcome = some .release ∧ redeemed
  if e.lockEvent?.isNone then .reserved
  else if paid then .paid
  else if returned then
    if e.chamaCircle.any fun circle =>
        (e.resolvedAt.or e.claim.claimedAt).getD .posInf < circle.roundEndSec then .refunded
    else .returned
  else .locked

/-- `sharesForCircle`: the roster of a circle, or of all, one entry for each share id.  A share has
its member in the buyer seat from its CREATE on. -/
def sharesForCircle (pendingVote : EscrowState → Bool) (escrows : List EscrowState)
    (circleId : Option String) : List CircleShareLock :=
  let shares := escrows.filter fun e => e.chamaPolicy.isSome && (truthyKey e.parent).isSome
    && (truthyKey circleId).all fun id => e.parent = some id
  (firstByKey (fun e => e.id) shares []).map fun e => {
    circleId := e.parent.getD ""
    memberPubkey := e.participants.buyer.getD ""
    status := shareStatus (pendingVote e) e
    lockedAtSec := e.lockEvent?.map ParsedEscrowEvent.timestamp }

/-- The ring option of a share: who asks for it, and the roster. -/
structure RingSeat where
  buyerPubkey : String
  locks : List CircleShareLock
  enabled : Option Bool := none

/-- `CHAMA_RING_WRITER_ENABLED`. -/
def ringWriterEnabled : Bool := false

def ringCandidates (parentId : String) (nowSec : JsNumber) (ring : RingSeat) :
    List CircleShareLock :=
  ring.locks.filter fun l => l.circleId = parentId ∧ l.status = .locked
    ∧ l.lockedAtSec.any (fun lockedAt => lockedAt ≤ nowSec)
    ∧ toLowerCase l.memberPubkey ≠ toLowerCase ring.buyerPubkey

def latestCandidate (candidates : List CircleShareLock) : Option CircleShareLock :=
  (candidates.insertionSort fun a b => b.lockedAtSec.getD 0 ≤ a.lockedAtSec.getD 0).head?

/-- The witness of a share: the creator of the circle, or with the ring the member who locked last
before it. -/
def shareWitness (circle : CircleRound) (parentId : String) (nowSec : JsNumber)
    (ring : Option RingSeat) : Except JsError String :=
  match ring.filter fun ring => ring.enabled.getD ringWriterEnabled with
  | none => .ok circle.creatorPubkey
  | some ring =>
    match latestCandidate (ringCandidates parentId nowSec ring) with
    | some latest => .ok latest.memberPubkey
    | none =>
      if toLowerCase ring.buyerPubkey = toLowerCase circle.creatorPubkey then
        .error (.error "Hosts lock last: another member must lock first")
      else .ok circle.creatorPubkey

def shareCreatePayload (parent : CircleView) (nowSec : JsNumber) (feePubkey : String)
    (ring : Option RingSeat) : Except JsError CreatePayload :=
  match (circleFromEscrow parent).filter fun circle => (validateCircleRound circle).isEmpty with
  | none => .error (.error "A validated circle parent is required")
  | some circle => do
    let sellerPubkey ← shareWitness circle parent.id nowSec ring
    let communityArbiters ← parent.communityArbiters.spread
    let bondedArbiters ← (parent.bondedArbiters.orElse (.arr [])).spread
    return {
      description := parent.description
      category := "chama-share"
      chamaPolicy := .known .shareV1
      parent := some parent.id
      sellerPubkey := some sellerPubkey
      amountMsats := circle.shareMsats
      mintUrl := parent.mintUrl
      community := parent.community
      fed := parent.fed
      fedPrefix := parent.fedPrefix
      platformFeeBps := 0
      platformFeePubkey := feePubkey
      arbiterFeeMsats := .num 0
      communityArbiters := .arr communityArbiters
      bondedArbiters := .arr bondedArbiters
      expirySeconds := circle.roundEndSec - nowSec
      createdAt := nowSec }

def rotationShareCreatePayload (parent : CircleView) (nowSec : JsNumber) (feePubkey : String)
    (buyerPubkey : String) (cycle : ChamaCycleContext) : Except JsError CreatePayload :=
  match (circleFromEscrow parent).filter fun circle =>
      circle.pot = .rotationV2 && !(circle.roundIndex < 2) with
  | none => .error (.error "A rotation round parent is required")
  | some circle =>
    match rotationFromCycle host cycle none with
    | .error reason => .error (.error reason)
    | .ok rot =>
      match collectorForRound host rot cycle.shares circle.roundIndex with
      | none => .error (.error "No lawful collector for this round")
      | some collector =>
        if toLowerCase buyerPubkey = collector then
          .error (.error "The collector sits out their own round")
        else if toLowerCase buyerPubkey ∉ rot.order then
          .error (.error "Only sealed members lock rotation shares")
        else do
          let payload ← shareCreatePayload parent nowSec feePubkey none
          return { payload with
            chamaPolicy := .known .shareV2
            sellerPubkey := some collector }

end ChamaEscrow
