import ChamaEscrow.Engine.State

/-!
# Arbiter assignment and substitution

The deterministic arbiter of a trade (`arbiter-pick.ts`), the order in which the pool may stand in
for it, and the clock of that substitution (`arbiter-substitution.ts`).

The pools come unchecked from the CREATE, so every function that walks one can throw.
-/

namespace ChamaEscrow

open Js Library

/-! ### The pick -/

def charCodes (c : Char) : List ℕ :=
  if c.toNat < 0x10000 then [c.toNat]
  else [0xD800 + (c.toNat - 0x10000) / 0x400, 0xDC00 + (c.toNat - 0x10000) % 0x400]

def idHash (escrowId : String) : ℤ :=
  (escrowId.toList.flatMap charCodes).foldl (fun hash code => (hash + code).bmod (2 ^ 32)) 0

/-- The keys of a pool whose lower-case form is in (`keep = true`) or out of a list. -/
def filterByKey (keep : Bool) (keys : List String) : List JsValue → Except JsError (List String)
  | [] => .ok []
  | pk :: rest => do
    let key ← pk.lowered
    let kept ← filterByKey keep keys rest
    return if (key ∈ keys) = (keep = true) then (pk.text?.getD "") :: kept else kept

def excludedKeys (exclude : List (Option String)) : List String :=
  exclude.filterMap fun pk => truthyKey (pk.map toLowerCase)

def pickCandidate (candidates : List String) (escrowId : String) : Option String :=
  candidates[(idHash escrowId).natAbs % candidates.length]?

def pickArbiterFromPool (pool : JsValue) (escrowId : String) (exclude : List (Option String)) :
    Except JsError (Option String) := do
  let candidates ← filterByKey false (excludedKeys exclude) (← pool.items)
  return pickCandidate candidates escrowId

def loweredKeys : List JsValue → Except JsError (List String)
  | [] => .ok []
  | pk :: rest => return (← pk.lowered) :: (← loweredKeys rest)

/-- `pickPreferredArbiter`: the pick among the bonded members of the pool, else among all. -/
def pickPreferredArbiter (pool bondedArbiters : JsValue) (escrowId : String)
    (exclude : List (Option String)) : Except JsError (Option String) := do
  let poolKeys ← loweredKeys (← pool.items)
  let bondedInPool ← filterByKey true poolKeys (← (bondedArbiters.orElse (.arr [])).items)
  let preferred ←
    if bondedInPool.isEmpty then pure none
    else pickArbiterFromPool (.arr (bondedInPool.map .str)) escrowId exclude
  match truthyKey preferred with
  | some pk => return some pk
  | none => pickArbiterFromPool pool escrowId exclude

/-! ### The priority order -/

/-- `ARBITER_POOL_SHARE_CAP`: the assigned arbiter and two backups. -/
def arbiterPoolShareCap : ℕ := 3

def appendBackups (pool : List JsValue) (escrowId : String) (principals : List (Option String)) :
    (fuel : ℕ) → List String → Except JsError (List String)
  | 0, order => .ok order
  | fuel + 1, order =>
    if arbiterPoolShareCap ≤ order.length then .ok order
    else do
      let next ← pickArbiterFromPool (.arr pool) escrowId (principals ++ order.map some)
      match truthyKey next with
      | none => return order
      | some pk => appendBackups pool escrowId principals fuel (order ++ [pk])

/-- `arbiterPriorityOrderFor`: the assigned arbiter first, then the backups. -/
def arbiterPriorityOrderFor (escrowId : String) (pool : JsValue)
    (buyer seller assigned : Option String) : Except JsError (List String) := do
  let members ← pool.spread
  appendBackups members escrowId [buyer, seller] arbiterPoolShareCap (truthyKey assigned).toList

/-- `arbiterShareRecipientsFor`: who receives the arbiter share, never the whole pool. -/
def arbiterShareRecipientsFor (escrowId : String) (pool : JsValue)
    (buyer seller assigned : Option String) : Except JsError (List String) := do
  let order ← arbiterPriorityOrderFor escrowId pool buyer seller assigned
  let members ← pool.spread
  return order.take (max 1 (min arbiterPoolShareCap (members.length - 1)))

/-- `arbiterPriorityOrder`: the order of this trade. -/
def arbiterPriorityOrder (state : EscrowState) : Except JsError (List String) :=
  arbiterPriorityOrderFor state.id state.communityArbiters state.participants.buyer
    state.participants.seller state.participants.arbiter

/-- `arbiterVotePriority`: the place of a key in the order, 0 for the assigned arbiter. -/
def arbiterVotePriority (state : EscrowState) (pubkey : String) : Except JsError (Option ℕ) := do
  return (← arbiterPriorityOrder state).findIdx? fun pk => pk = pubkey

/-! ### The substitution clock -/

/-- `SUBSTITUTION_GRACE_MAX_SECONDS`, also the slack of a dispute clock. -/
def substitutionGraceMaxSeconds : JsNumber := 14400

/-- How long a rotation's collector has to claim, `COLLECT_WINDOW_SEC`. -/
def collectWindowSec : JsNumber := 604800

def clampSubstitutionGraceSeconds (value : Option JsNumber) : JsNumber :=
  match value with
  | some v =>
    if v.isFinite then JsNumber.max 0 (JsNumber.min substitutionGraceMaxSeconds v.floor)
    else substitutionGraceMaxSeconds
  | none => substitutionGraceMaxSeconds

/-- `clampDisputeAnchor`: a dispute clock starts at most four hours after the deadline. -/
def clampDisputeAnchor (state : EscrowState) (at_ : JsNumber) : JsNumber :=
  if 0 < state.expiresAt ∧ state.expiresAt + substitutionGraceMaxSeconds < at_ then
    state.expiresAt + substitutionGraceMaxSeconds
  else at_

/-- The window of the assigned arbiter from a start time: the committed grace, at most half of the
trade's remaining life. -/
def graceWindowEnd (state : EscrowState) (start : JsNumber) : JsNumber :=
  let ceiling := clampSubstitutionGraceSeconds state.lock.substitutionGraceSeconds
  let half :=
    if (JsValue.num state.expiresAt).truthy then
      JsNumber.max 0 ((state.expiresAt - start).divBy 2).floor
    else ceiling
  start + JsNumber.min ceiling half

def voteEvents (chain : List ParsedEscrowEvent) : List (ParsedEscrowEvent × VotePayload) :=
  chain.filterMap fun e =>
    match e.payload with
    | .vote p => some (e, p)
    | _ => none

/-- The lone vote a one-sided dispute stands on: the first vote of the key in seat `role` for
`outcome`. -/
def standingVoteAt (state : EscrowState) (role : Role) (outcome : Outcome) : Option JsNumber :=
  ((voteEvents state.eventChain).find? fun v =>
    some v.1.pubkey = state.participants.get role && v.2.outcome = outcome).map fun v =>
      clampDisputeAnchor state v.1.timestamp

def shareRefundAnchor (state : EscrowState) : Option JsNumber :=
  [(Role.buyer, Role.seller), (Role.seller, Role.buyer)].findSome? fun (role, other) =>
    if state.votes.get role = some .refund ∧ state.votes.get other = none then
      standingVoteAt state role .refund
    else none

/-- The standing RELEASE of the party that did not lock, with the locker silent. -/
def releaseAnchor (state : EscrowState) : Option JsNumber :=
  match payoutRecipientFor state .release, payoutRecipientFor state .refund with
  | some (_, nonLocker), some (_, locker) =>
    if state.votes.get locker ≠ none then none
    else if state.votes.get nonLocker ≠ some .release then none
    else standingVoteAt state nonLocker .release
  | _, _ => none

/-- `oneSidedReleaseAnchor`: when the vote that opens a one-sided dispute was cast. -/
def oneSidedReleaseAnchor (state : EscrowState) : Option JsNumber :=
  match state.chamaPolicy with
  | none => releaseAnchor state
  | some .shareV1 => shareRefundAnchor state
  | some .shareV2 => (shareRefundAnchor state).or (releaseAnchor state)

/-- `oneSidedEscalationAt`: when the arbiter may rule on a one-sided dispute. -/
def oneSidedEscalationAt (state : EscrowState) : Option JsNumber :=
  (oneSidedReleaseAnchor state).map (graceWindowEnd state)

def firstVoteOf (state : EscrowState) (role : Role) : Option (Outcome × JsNumber) :=
  ((voteEvents state.eventChain).find? fun v => v.2.role = role).map fun v =>
    (v.2.outcome, v.1.timestamp)

def disputeStartAt (state : EscrowState) : Option JsNumber :=
  match firstVoteOf state .buyer, firstVoteOf state .seller with
  | some (buyerOutcome, buyerAt), some (sellerOutcome, sellerAt) =>
    if buyerOutcome ≠ sellerOutcome then
      some (clampDisputeAnchor state (JsNumber.max buyerAt sellerAt))
    else oneSidedEscalationAt state
  | _, _ => oneSidedEscalationAt state

/-- `substitutionEligibleAt`: when a backup may cast the arbiter vote. -/
def substitutionEligibleAt (state : EscrowState) : Option JsNumber :=
  (disputeStartAt state).map (graceWindowEnd state)

/-- `isPerformanceContest`: a standing RELEASE of the party that did not lock, which no arbiter has
ruled against. -/
def isPerformanceContest (state : EscrowState) (now : JsNumber) : Bool :=
  match payoutRecipientFor state .release with
  | none => false
  | some (_, nonLocker) =>
    state.votes.get nonLocker = some .release && state.votes.get .arbiter ≠ some .refund
      && !(state.chamaPolicy = some .shareV2
        && state.chamaCircle.any fun circle => circle.roundEndSec + collectWindowSec ≤ now)

end ChamaEscrow
