import ChamaEscrow.Engine.Arbiters
import ChamaEscrow.Engine.Host
import Mathlib.Data.List.Sort

/-!
# Circles

The rules of savings circles: the shape of a round (`circle.ts`), the rotation of a sealed cycle
(`rotation.ts`), and the two gates the reducer asks, `chamaCreateError` for a CREATE and
`chamaOutcomeError` for a vote or a resolution (`policy.ts`).
-/

namespace ChamaEscrow

open Js Library

/-! ### Rounds -/

structure CircleRound extends CircleTerms where
  circleId : String
  creatorPubkey : String
  community : String
  mintUrl : String
  createdAt : JsNumber

/-- Two weeks, the longest a federation holds locked ecash. -/
def maxRoundSec : JsNumber := 1209600

/-- `validateCircleRound`: what is wrong with a round. -/
def validateCircleRound (circle : CircleRound) : List String :=
  (if circle.createdAt.isSafeInteger && circle.fillDeadlineSec.isSafeInteger
      && circle.roundEndSec.isSafeInteger then []
    else ["Circle timestamps must be safe integer seconds"])
  ++ (if circle.prevCircleId = some "" then
      ["Previous circle id must be null or a nonempty string"] else [])
  ++ (if circle.shareMsats.isSafeInteger && 0 < circle.shareMsats then []
    else ["shareMsats must be a positive integer"])
  ++ (if circle.seatThreshold.isSafeInteger && 2 ≤ circle.seatThreshold then []
    else ["seatThreshold must be an integer of at least 2"])
  ++ (if circle.seatCap.all fun cap => cap.isSafeInteger && circle.seatThreshold ≤ cap then []
    else ["seatCap must be null or an integer >= seatThreshold"])
  ++ (if circle.createdAt < circle.fillDeadlineSec then []
    else ["fillDeadlineSec must be after createdAt"])
  ++ (if circle.fillDeadlineSec < circle.roundEndSec then []
    else ["roundEndSec must be after fillDeadlineSec"])
  ++ (if maxRoundSec < circle.roundEndSec - circle.createdAt then
      ["round exceeds the two-week federation hold bound"] else [])
  ++ (if circle.roundIndex.isSafeInteger && 1 ≤ circle.roundIndex then []
    else ["roundIndex must be a positive integer"])
  ++ (if circle.roundIndex = 1 ∧ circle.prevCircleId.isSome then
      ["a first round cannot claim a previous circle"] else [])
  ++ (if 1 < circle.roundIndex ∧ (truthyKey circle.prevCircleId).isNone then
      ["a re-formed round must name its previous circle"] else [])

/-- `circleFromEscrow`: the round of a replayed circle. -/
def circleFromEscrow (state : CircleView) : Option CircleRound :=
  if state.category ≠ "chama" then none
  else state.chamaCircle.map fun terms =>
    { terms with
      circleId := state.id
      creatorPubkey := state.creatorPubkey
      community := state.community.getD ""
      mintUrl := state.mintUrl
      createdAt := state.createdAt }

/-! ### Deterministic ids -/

def jsonChar (c : Char) : String :=
  if c = '"' then "\\\"" else if c = '\\' then "\\\\"
  else if c = '\n' then "\\n" else if c = '\r' then "\\r" else if c = '\t' then "\\t"
  else String.ofList [c]

def jsonText (s : String) : String := "\"" ++ String.join (s.toList.map jsonChar) ++ "\""

variable (host : Host)

/-- `roundCircleId`: the id of round `r ≥ 2` of a cycle. -/
def roundCircleId (round1CircleId : String) (roundIndex : JsNumber) : String :=
  host.sha256Hex ("[" ++ jsonText "chama-round-v2" ++ "," ++ jsonText (toLowerCase round1CircleId)
    ++ "," ++ roundIndex.toText ++ "]")

/-- `shareEscrowId`: the id of a member's share of a round. -/
def shareEscrowId (circleId memberPubkey : String) (roundIndex : JsNumber) : String :=
  host.sha256Hex ("[" ++ jsonText "chama-share-v1" ++ "," ++ jsonText circleId ++ ","
    ++ jsonText (toLowerCase memberPubkey) ++ "," ++ roundIndex.toText ++ "]")

/-! ### The rotation -/

/-- A member with the time of their lock. -/
structure Standing where
  member : String
  lockedAt : JsNumber
  deriving DecidableEq

/-- The faster of two standings first, ties by key. -/
def Standing.before (a b : Standing) : Bool :=
  a.lockedAt < b.lockedAt || (!(b.lockedAt < a.lockedAt) && a.member < b.member)

def rankStandings (l : List Standing) : List Standing :=
  l.insertionSort fun a b => Standing.before a b ∨ a = b

def shareStanding (e : ShareView) : Option Standing :=
  match e.lockTimestamp, e.buyer with
  | some at_, some member => some ⟨toLowerCase member, at_⟩
  | _, _ => none

def firstByKey {α : Type} (key : α → String) : List α → List String → List α
  | [], _ => []
  | a :: rest, seen =>
    if key a ∈ seen then firstByKey key rest seen
    else a :: firstByKey key rest (key a :: seen)

/-- `commitmentLocks`: the locked seats of the commitment round, one for each share id. -/
def commitmentLocks (round1CircleId : String) (shares : List ShareView) : List Standing :=
  (firstByKey ShareView.id (shares.filter fun e =>
    e.chamaPolicy = some .shareV1 ∧ e.parent = some round1CircleId) []).filterMap shareStanding

/-- `rotationOrder`: the members in the order they locked, the host last. -/
def rotationOrder (creatorPubkey : String) (locks : List Standing) : List String :=
  let host := toLowerCase creatorPubkey
  let members := (rankStandings (firstByKey Standing.member locks [])).map Standing.member
  members.filter (· ≠ host) ++ members.filter (· = host)

structure Rotation where
  round1Id : String
  round1 : CircleRound
  order : List String

/-- Whether a circle is a lawful first round of a rotation; `proves` names the later round that the
chain of ids from it must produce. -/
def anchorsRotation (proves : Option (String × JsNumber)) (state : CircleView) :
    Option CircleRound :=
  (circleFromEscrow state).filter fun c =>
    c.roundIndex = 1 && c.pot = .rotationV2 && (validateCircleRound c).isEmpty
      && proves.all fun (id, roundIndex) =>
        !(2 ≤ roundIndex && roundCircleId host state.id roundIndex ≠ id)

/-- `rotationFromCycle` over the circles left to try; `firstError` is the last reason found. -/
def rotationFrom (shares : List ShareView) (proves : Option (String × JsNumber)) :
    List CircleView → (firstError : Option String) → Except String Rotation
  | [], firstError => .error (firstError.getD "Rotation cycle context must include a lawful round 1")
  | state :: rest, firstError =>
    match anchorsRotation host proves state with
    | none => rotationFrom shares proves rest firstError
    | some c =>
      let order := rotationOrder c.creatorPubkey (commitmentLocks state.id shares)
      if order.length < 3 then
        rotationFrom shares proves rest (some "A rotation needs at least three sealed members")
      else if JsNumber.ofInt order.length < c.seatThreshold then
        rotationFrom shares proves rest (some "The commitment round did not fill")
      else .ok ⟨state.id, c, order⟩

/-- `rotationFromCycle`: the rotation a resolved cycle proves. -/
def rotationFromCycle (cycle : ChamaCycleContext) (proves : Option (String × JsNumber)) :
    Except String Rotation :=
  rotationFrom host cycle.shares proves cycle.circles none

/-- The members who locked in round `r`, fastest first. -/
def raceOf (rot : Rotation) (shares : List ShareView) (r : ℕ) : List String :=
  let prevId :=
    if r = 1 then toLowerCase rot.round1Id else roundCircleId host rot.round1Id (.ofInt r)
  let prevPolicy := if r = 1 then ChamaPolicy.shareV1 else .shareV2
  (rankStandings ((shares.filter fun e =>
    e.chamaPolicy = some prevPolicy ∧ e.parent.map toLowerCase = some prevId).filterMap
      shareStanding)).map Standing.member |>.filter (· ∈ rot.order)

/-- The collectors of rounds `r, r + 1, …` after those in `collected`, for `fuel` rounds; the list
stops at the first round without one. -/
def collectorsFrom (rot : Rotation) (shares : List ShareView) :
    (fuel r : ℕ) → (collected : List String) → List String
  | 0, _, _ => []
  | fuel + 1, r, collected =>
    let hostKey := toLowerCase rot.round1.creatorPubkey
    let hostSeated := hostKey ∈ rot.order
    if hostSeated ∧ r = rot.order.length + 1 then
      if hostKey ∈ collected then [] else [hostKey]
    else
      match (raceOf host rot shares (r - 1)).find? fun m =>
        m ∉ collected ∧ ¬(hostSeated ∧ m = hostKey) with
      | none => []
      | some m => m :: collectorsFrom rot shares fuel (r + 1) (m :: collected)

/-- `collectorForRound`: the fastest member of the previous round who has not collected yet, the
host last. -/
def collectorForRound (rot : Rotation) (shares : List ShareView) (roundIndex : JsNumber) :
    Option String :=
  match roundIndex.toNat? with
  | none => none
  | some r =>
    if r < 2 ∨ rot.order.length + 1 < r ∨ !roundIndex.isSafeInteger then none
    else (collectorsFrom host rot shares (r - 1) 2 [])[r - 2]?

inductive RoundOutcome
  | none
  | refund
  | release
  deriving DecidableEq

/-- `roundOutcomeAt`: the one lawful outcome of a moment, from the fill and the clock. -/
def roundOutcomeAt (fillDeadlineSec roundEndSec lockedCount expectedCount now : JsNumber) :
    RoundOutcome :=
  let filled := expectedCount ≤ lockedCount ∧ 0 < expectedCount
  if now < fillDeadlineSec ∧ ¬ filled then .none
  else if ¬ filled then .refund
  else if now < roundEndSec then .none
  else if now < roundEndSec + collectWindowSec then .release
  else .refund

/-! ### The outcome law -/

/-- How the caller of `chamaOutcomeError` relates to the event: it observes a principal's or an
arbiter's vote, or finalizes a resolution. -/
inductive OutcomeJudgment
  | observePrincipal
  | observeArbiter
  | finalize
  deriving DecidableEq

def fillEntries (evidence : JsValue) : Option (List String) :=
  match evidence.getOptional "locked" with
  | .arr entries => some (entries.map fun m => (m.text?.map toLowerCase).getD "")
  | _ => none

/-- The cross-check of a commitment against the cycle the observer holds, when it proves one. -/
def evidenceCycleError (state : EscrowState) (circle : CircleTerms) (outcome : Outcome)
    (entries : List String) (cycle : ChamaCycleContext) : Option String :=
  let parent := truthyKey state.parent
  match rotationFromCycle host cycle (parent.map fun id => (id, circle.roundIndex)) with
  | .error _ => none
  | .ok rot =>
    match collectorForRound host rot cycle.shares circle.roundIndex with
    | none => some "Rotation share is not part of this cycle"
    | some collector =>
      if parent ≠ some (roundCircleId host rot.round1Id circle.roundIndex) then
        some "Rotation share is not part of this cycle"
      else if outcome = .release
          ∧ state.participants.seller.map toLowerCase ≠ some collector then
        some "Share does not pay this round's collector"
      else if entries.any fun m => m ∉ rot.order ∨ m = collector then
        some "Fill evidence names a non-member"
      else none

def rotationOutcomeError (state : EscrowState) (circle : CircleTerms) (outcome : Outcome)
    (at_ : JsNumber) (cycle : Option ChamaCycleContext) (evidence : JsValue) : Option String :=
  match fillEntries evidence with
  | none => some "Rotation share resolution must commit its fill evidence"
  | some entries =>
    if 128 < entries.length ∨ (entries.any fun m => !isLowerHex 64 m) ∨ ¬ entries.Nodup then
      some "Malformed fill evidence"
    else
      match cycle.bind (evidenceCycleError host state circle outcome entries) with
      | some problem => some problem
      | none =>
        let lawful := roundOutcomeAt circle.fillDeadlineSec circle.roundEndSec
          (.ofInt entries.length) circle.seatThreshold at_
        match outcome with
        | .release =>
          if lawful = .release then none
          else some "Release is only lawful for a filled round at its payday"
        | .refund =>
          if lawful = .refund then none
          else some "Refund is not lawful while the round can still pay its collector"

/-- `chamaOutcomeError`: what the circle law holds against an outcome. -/
def chamaOutcomeError (state : EscrowState) (outcome : Outcome) (at_ : JsNumber)
    (cycle : Option ChamaCycleContext) (judgment : OutcomeJudgment) (evidence : JsValue) :
    Option String :=
  match state.chamaPolicy with
  | none => none
  | some .shareV1 => if outcome = .refund then none else some "Shares only allow REFUND"
  | some .shareV2 =>
    if judgment = .observePrincipal then none
    else state.chamaCircle.bind fun circle =>
      rotationOutcomeError host state circle outcome at_ cycle evidence

/-! ### The CREATE gate -/

def firstProblem (checks : List (Bool × String)) : Option String :=
  (checks.find? Prod.fst).map Prod.snd

def isCirclePool : JsValue → Bool
  | .undefined => true
  | .arr keys => keys.all fun pk => (pk.text?.any (isLowerHex 64))
  | _ => false

def poolKeys (pool : JsValue) : List String :=
  match pool with
  | .arr keys => keys.filterMap JsValue.text?
  | _ => []

/-- `chainedRoundError`: a later round keeps the ids, the terms and the schedule of its cycle. -/
def chainedRoundError (c : CircleRound) (pubkey : String) (at_ : JsNumber)
    (cycle : Option ChamaCycleContext) : Option String :=
  match cycle with
  | none => some "A rotation round requires cycle context"
  | some cycle =>
    match rotationFromCycle host cycle (some (c.circleId, c.roundIndex)) with
    | .error problem => some problem
    | .ok rot =>
      let prevId :=
        if c.roundIndex = 2 then rot.round1Id
        else roundCircleId host rot.round1Id (c.roundIndex - 1)
      let members := JsNumber.ofInt rot.order.length
      let duration := rot.round1.roundEndSec - rot.round1.createdAt
      let fillWindow := rot.round1.fillDeadlineSec - rot.round1.createdAt
      let start := rot.round1.roundEndSec + (c.roundIndex - 2) * duration
      let prevCollector := collectorForRound host rot cycle.shares (c.roundIndex - 1)
      let lockedMembers := (cycle.shares.filter fun e =>
        e.chamaPolicy = some .shareV2 ∧ e.parent = some prevId).filterMap shareStanding
      firstProblem [
        (c.circleId ≠ roundCircleId host rot.round1Id c.roundIndex,
          "Rotation round id must be deterministic"),
        (c.prevCircleId ≠ some prevId, "Rotation round must chain to the previous round"),
        (members + 1 < c.roundIndex, "No round beyond the rotation"),
        (toLowerCase pubkey ∉ rot.order, "Only a sealed member can open a rotation round"),
        (c.shareMsats ≠ rot.round1.shareMsats || c.community ≠ rot.round1.community
          || c.mintUrl ≠ rot.round1.mintUrl, "Rotation rounds must keep the cycle terms"),
        (c.seatThreshold ≠ members - 1 || c.seatCap ≠ some (members - 1),
          "Rotation round seats must equal the sealed members minus the collector"),
        (!c.unlisted, "Rotation rounds are members-only"),
        (c.fillDeadlineSec ≠ start + fillWindow || c.roundEndSec ≠ start + duration,
          "Rotation rounds keep the cycle schedule"),
        (at_ < start, "A rotation round cannot open before the previous round ends"),
        (c.fillDeadlineSec ≤ at_, "This rotation round's fill window has passed"),
        (2 < c.roundIndex && prevCollector.isNone, "The previous round has no lawful collector"),
        (2 < c.roundIndex && !rot.order.all fun m =>
            some m = prevCollector || lockedMembers.any fun s => s.member = m,
          "The previous round did not fill")]

/-- What a chained round keeps of its first round beyond the terms: the arbiter pool, which seats
the third key of every share, and the federation. -/
def chainedCreateError (p : CreatePayload) (c : CircleRound) (cycle : ChamaCycleContext) :
    Option String :=
  match rotationFromCycle host cycle (some (c.circleId, c.roundIndex)) with
  | .error problem => some problem
  | .ok rot =>
    match cycle.circles.find? fun st => st.id = rot.round1Id with
    | none => none
    | some round1 => firstProblem [
        (poolKeys p.communityArbiters ≠ poolKeys round1.communityArbiters
          || poolKeys p.bondedArbiters ≠ poolKeys round1.bondedArbiters,
          "Rotation rounds must keep the cycle's arbiter pool"),
        (p.fed ≠ round1.fed || p.fedPrefix ≠ round1.fedPrefix,
          "Rotation rounds must keep the cycle's federation")]

def circleCreateError (p : CreatePayload) (id pubkey : String) (at_ : JsNumber)
    (cycle : Option ChamaCycleContext) (sim : Bool) : Option String :=
  match p.chamaCircle, p.chamaPolicy, p.parent with
  | .terms terms, .absent, none =>
    let c : CircleRound := { terms with
      circleId := id
      creatorPubkey := pubkey
      community := p.community.getD ""
      mintUrl := p.mintUrl
      createdAt := at_ }
    let errors := validateCircleRound c
    if !errors.isEmpty then some ("; ".intercalate errors)
    else if at_ + p.expirySeconds ≠ c.roundEndSec then some "Circle expiry must equal round end"
    else
      match c.pot with
      | .fillOrRefund => none
      | .unknown => some "Unknown circle pot policy"
      | .rotationV2 =>
        if !sim && c.roundIndex = 1 && (c.fillDeadlineSec - at_ < 3600
            || c.roundEndSec - c.fillDeadlineSec < 3600) then
          some "Pot circles need at least an hour to fill and an hour to run"
        else if 1 < c.roundIndex then
          (chainedRoundError host c pubkey at_ cycle).or
            (cycle.bind (chainedCreateError host p c))
        else none
  | _, _, _ => some "Invalid circle parent shape"

def rotationShareError (p : CreatePayload) (pubkey : String) (circle : CircleRound)
    (cycle : Option ChamaCycleContext) : Option String :=
  match cycle with
  | none => some "A rotation share requires cycle context"
  | some cycle =>
    match rotationFromCycle host cycle (some (circle.circleId, circle.roundIndex)) with
    | .error problem => some problem
    | .ok rot =>
      let collector := collectorForRound host rot cycle.shares circle.roundIndex
      firstProblem [
        (circle.circleId ≠ roundCircleId host rot.round1Id circle.roundIndex,
          "Rotation share must sit in its cycle's round"),
        (collector.isNone || p.sellerPubkey ≠ collector,
          "Rotation share must pay the round's collector"),
        (toLowerCase pubkey ∉ rot.order, "Only sealed members lock rotation shares")]

def ringShareError (sellerPubkey : String) (at_ : JsNumber) (circle : CircleRound)
    (witness : Option ShareView) : Option String :=
  match witness with
  | none => some "Ring witness share is required"
  | some witness => firstProblem [
      (witness.id ≠ shareEscrowId host circle.circleId sellerPubkey circle.roundIndex,
        "Ring witness share id mismatch"),
      (witness.chamaPolicy ≠ some .shareV1 || witness.parent ≠ some circle.circleId,
        "Ring witness must hold a share in this circle"),
      (witness.buyer ≠ some sellerPubkey, "Ring witness must own their share"),
      (witness.lockTimestamp.all fun t => at_ < t, "Ring witness must lock before witnessing")]

def shareCreateError (p : CreatePayload) (policy : ChamaPolicy) (id pubkey : String)
    (at_ : JsNumber) (parent : Option CircleView) (witness : Option ShareView)
    (cycle : Option ChamaCycleContext) : Except JsError (Option String) :=
  match parent, parent.bind circleFromEscrow with
  | some parent, some circle =>
    let seller := p.sellerPubkey.getD ""
    let rotationRound := circle.pot = .rotationV2 ∧ 2 ≤ circle.roundIndex
    let early := firstProblem [
      (!(validateCircleRound circle).isEmpty || p.parent ≠ some parent.id,
        "A validated circle parent is required"),
      (p.amountMsats ≠ circle.shareMsats, "Share amount must equal circle share amount"),
      (at_ < circle.createdAt || circle.fillDeadlineSec ≤ at_
        || at_ + p.expirySeconds ≠ circle.roundEndSec,
        "Share must use the circle's fixed deadlines"),
      (id ≠ shareEscrowId host parent.id pubkey circle.roundIndex,
        "Share id must be deterministic"),
      (!isLowerHex 64 pubkey || !isLowerHex 64 seller || pubkey = seller,
        "Share must seat distinct member and witness"),
      (rotationRound && policy ≠ .shareV2, "Rotation rounds require share-v2"),
      (!rotationRound && policy = .shareV2, "share-v2 requires a rotation round parent")]
    let seating :=
      if policy = .shareV2 then rotationShareError host p pubkey circle cycle
      else if seller ≠ circle.creatorPubkey then ringShareError host seller at_ circle witness
      else none
    let late := firstProblem [
      (p.mintUrl ≠ parent.mintUrl || p.community ≠ parent.community || p.fed ≠ parent.fed
        || p.fedPrefix ≠ parent.fedPrefix, "Share federation/community must match parent"),
      (poolKeys p.communityArbiters ≠ poolKeys parent.communityArbiters
        || poolKeys p.bondedArbiters ≠ poolKeys parent.bondedArbiters,
        "Share arbiter pool must match parent")]
    match (early.or seating).or late with
    | some problem => .ok (some problem)
    | none => do
      let arbiter ← pickPreferredArbiter (p.communityArbiters.orElse (.arr []))
        (p.bondedArbiters.orElse (.arr [])) id [some pubkey, some seller]
      return firstProblem [
        ((truthyKey arbiter).isNone, "Share requires a distinct pool arbiter"),
        (p.platformFeeBps ≠ 0 || !(p.arbiterFeeMsats.orElse (.num 0)).strictEq (.num 0),
          "Shares return the full amount without fees")]
  | _, _ => .ok (some "A validated circle parent is required")

def forbiddenChamaFields (p : CreatePayload) : List (Bool × String) := [
  (!p.tranche.isUndefined, "Chama forbids tranche"),
  (p.trancheChild.isSome, "Chama forbids trancheChild"),
  (!p.sliceCount.isUndefined, "Chama forbids sliceCount"),
  (!p.settlementPolicy.isUndefined, "Chama forbids settlementPolicy"),
  (p.items.isSome, "Chama forbids items"),
  (p.stock.isSome, "Chama forbids stock"),
  (p.claimedQuantity.isSome, "Chama forbids claimedQuantity"),
  (!p.subscription.isUndefined, "Chama forbids subscription"),
  (!p.amountRange.isUndefined, "Chama forbids amountRange"),
  (!p.minAmountMsats.isUndefined, "Chama forbids minAmountMsats"),
  (!p.maxAmountMsats.isUndefined, "Chama forbids maxAmountMsats")]

def isPlainCreate (p : CreatePayload) : Bool :=
  p.category ≠ "chama" && p.category ≠ "chama-share" && p.chamaPolicy = .absent
    && (match p.chamaCircle with
      | .absent => true
      | _ => false)

/-- `chamaCreateError`: what the circle law holds against a CREATE. -/
def chamaCreateError (p : CreatePayload) (id pubkey : String) (at_ : JsNumber)
    (parent : Option CircleView) (witness : Option ShareView) (cycle : Option ChamaCycleContext)
    (sim : Bool) : Except JsError (Option String) :=
  if isPlainCreate p then .ok none
  else
    match firstProblem ([
      (!isCirclePool p.communityArbiters || !isCirclePool p.bondedArbiters,
        "Invalid circle arbiter pool"),
      ((poolKeys p.bondedArbiters).any fun pk => pk ∉ poolKeys p.communityArbiters,
        "Bonded arbiters must belong to the circle pool"),
      (p.createdAt ≠ at_ || !at_.isSafeInteger, "CREATE timestamp mismatch"),
      (!p.escrowMode.isUndefined && !p.escrowMode.isText "ecash",
        "Circles and shares require ecash")] ++ forbiddenChamaFields p) with
    | some problem => .ok (some problem)
    | none =>
      if p.category = "chama" then .ok (circleCreateError host p id pubkey at_ cycle sim)
      else
        match p.chamaPolicy, p.chamaCircle with
        | .known policy, .absent =>
          if p.category = "chama-share" then
            shareCreateError host p policy id pubkey at_ parent witness cycle
          else .ok (some "Invalid share policy/category")
        | _, _ => .ok (some "Invalid share policy/category")

end ChamaEscrow
