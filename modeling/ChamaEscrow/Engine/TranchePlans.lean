import ChamaEscrow.Engine.Custody
import ChamaEscrow.Library.OrderedMap

/-!
# Tranche plans

The children of a frozen plan (`tranche-plan.ts`): the id that a plan fixes for each of its
children, the check of a child's CREATE against the plan, and the state of a plan over the children
that a client has found.
-/

namespace ChamaEscrow

open Js Library

/-! ### Digests -/

def quotedChar (c : Char) : List Char :=
  if c = '"' then ['\\', '"']
  else if c = '\\' then ['\\', '\\']
  else if c = '\n' then ['\\', 'n']
  else if c = '\r' then ['\\', 'r']
  else if c = '\t' then ['\\', 't']
  else if c.toNat = 8 then ['\\', 'b']
  else if c.toNat = 12 then ['\\', 'f']
  else if c.toNat < 32 then
    ['\\', 'u', '0', '0', Nat.digitChar (c.toNat / 16), Nat.digitChar (c.toNat % 16)]
  else [c]

/-- `JSON.stringify` of a text. -/
def quoted (s : String) : String := String.ofList ('"' :: s.toList.flatMap quotedChar ++ ['"'])

mutual
/-- `canonical`: a document as JSON with its keys in order; a field that is absent prints as
`undefined`. -/
def canonical : JsValue → String
  | .undefined => "undefined"
  | .null => "null"
  | .bool b => if b then "true" else "false"
  | .num n => if n.isFinite then n.toText else "null"
  | .str s => quoted s
  | .arr items => "[" ++ ",".intercalate (canonicalItems items) ++ "]"
  | .obj fields =>
    let entries := (canonicalFields fields).insertionSort fun a b => textLe a.1 b.1 = true
    "\x7b" ++ ",".intercalate (entries.map fun entry => quoted entry.1 ++ ":" ++ entry.2)
      ++ "\x7d"

def canonicalItems : List JsValue → List String
  | [] => []
  | item :: items => canonical item :: canonicalItems items

def canonicalFields : List (String × JsValue) → List (String × String)
  | [] => []
  | (key, value) :: fields => (key, canonical value) :: canonicalFields fields
end

section

variable (host : Host)

/-- `trancheTermsDigest`: the commercial terms of a CREATE. -/
def trancheTermsDigest (payload : CreatePayload) : String :=
  host.sha256Hex (canonical (.obj [
    ("description", .str payload.description),
    ("category", .str payload.category),
    ("fulfillment", payload.fulfillment),
    ("community", payload.community.elim .undefined .str),
    ("fiatAmount", payload.fiatAmount),
    ("fiatCurrency", payload.fiatCurrency),
    ("premiumBps", payload.premiumBps),
    ("paymentMethods", payload.paymentMethods),
    ("mintUrl", .str payload.mintUrl),
    ("platformFeeBps", .num payload.platformFeeBps),
    ("platformFeePubkey", .str payload.platformFeePubkey),
    ("arbiterFeeMsats", payload.arbiterFeeMsats),
    ("expirySeconds", .num payload.expirySeconds)]))

def trancheChildId (parentId planId : String) (index : JsNumber) : Except JsError String :=
  if !index.isInteger ∨ index < 0 then
    .error (.error "Tranche index must be a non-negative integer")
  else .ok (host.sha256Hex ("chama-tranche-child-v1\x00" ++ parentId ++ "\x00" ++ planId ++ "\x00"
    ++ index.toText))

/-! ### The children of a plan -/

/-- `plan.tranches[index]`. -/
def PlanStartPayload.trancheAt (plan : PlanStartPayload) (index : JsNumber) :
    Option TrancheDescriptor := index.toNat?.bind fun i => plan.tranches[i]?

def buildChildDescriptor (parentId planStartEventId : String) (plan : PlanStartPayload)
    (index : JsNumber) : Except JsError TrancheChildDescriptor :=
  match plan.trancheAt index with
  | none => .error (.error s!"Missing tranche {index}")
  | some _ => .ok {
      parent := parentId
      planId := plan.planId
      planStartEventId
      index
      total := plan.total
      totalMsats := plan.totalMsats
      buyerPubkey := plan.buyerPubkey
      sellerPubkey := plan.sellerPubkey
      arbiterPubkey := plan.arbiterPubkey
      termsDigest := plan.termsDigest
      coordinatorPubkey := plan.coordinatorPubkey
      bitcoinNetwork := plan.bitcoinNetwork }

def descriptorChecks (child expected : TrancheChildDescriptor) : List (String × Bool) := [
  ("parent", child.parent = expected.parent),
  ("planId", child.planId = expected.planId),
  ("planStartEventId", child.planStartEventId = expected.planStartEventId),
  ("index", child.index.strictEq expected.index),
  ("total", child.total.strictEq expected.total),
  ("totalMsats", child.totalMsats.strictEq expected.totalMsats),
  ("buyerPubkey", child.buyerPubkey = expected.buyerPubkey),
  ("sellerPubkey", child.sellerPubkey = expected.sellerPubkey),
  ("arbiterPubkey", child.arbiterPubkey = expected.arbiterPubkey),
  ("termsDigest", child.termsDigest = expected.termsDigest),
  ("coordinatorPubkey", child.coordinatorPubkey = expected.coordinatorPubkey),
  ("bitcoinNetwork", child.bitcoinNetwork = expected.bitcoinNetwork)]

/-- `verifyTrancheChild`: what is wrong with the CREATE of a child. -/
def verifyTrancheChild (parentId planStartEventId : String) (plan : PlanStartPayload)
    (childId : String) (payload : CreatePayload) : Except JsError (Option String) :=
  match payload.trancheChild with
  | none => .ok (some "not a private plan child")
  | some child =>
    if child.parent ≠ parentId ∨ child.planStartEventId ≠ planStartEventId
        ∨ child.planId ≠ plan.planId then .ok (some "wrong parent plan")
    else do
      let expectedId ← trancheChildId host parentId plan.planId child.index
      if childId ≠ expectedId then return some "non-deterministic child id"
      let expected ← buildChildDescriptor parentId planStartEventId plan child.index
      match (descriptorChecks child expected).find? fun check => !check.2 with
      | some (key, _) => return some s!"child {key} does not match parent plan"
      | none =>
        if !(plan.trancheAt child.index).any fun tranche =>
            payload.amountMsats.strictEq tranche.amountMsats then
          return some "wrong child amount"
        if trancheTermsDigest host payload ≠ plan.termsDigest then
          return some "child commercial terms changed"
        return none

/-! ### The state of a plan -/

/-- What is known of one tranche. -/
structure PlanRow where
  id : String
  index : JsNumber
  amountMsats : JsNumber
  status : EscrowStatus
  valid : Bool
  error : Option String
  deriving DecidableEq

inductive NextSafeAction
  | publishMissingChildren
  | fundActiveChild
  | settleActiveChild
  | complete
  | repairPlan
  deriving DecidableEq

structure PlanState where
  plan : TranchePlan
  children : List PlanRow
  settledCount : ℕ
  outstandingMsats : JsNumber
  activeChildId : Option String
  stoppedReason : Option String
  nextSafeAction : NextSafeAction

/-- What the loop of `derivePlanState` keeps from one tranche to the next. -/
structure PlanScan where
  rows : List PlanRow
  settledCount : ℕ
  outstandingMsats : JsNumber
  stoppedReason : Option String

def childCreate (child : EscrowState) : Option CreatePayload :=
  (child.eventChain.find? fun event => event.kind = .create).bind fun event =>
    match event.payload with
    | .create payload => some payload
    | _ => none

def childError (parentId : String) (frozen : TranchePlan) (child : EscrowState) :
    Except JsError (Option String) := do
  let verificationError ← match childCreate child with
    | some payload =>
      verifyTrancheChild host parentId frozen.eventId frozen.toPlanStartPayload child.id payload
    | none => .ok (some "missing child CREATE")
  let exactParticipants := child.participants.buyer = some frozen.buyerPubkey
    ∧ child.participants.seller = some frozen.sellerPubkey
    ∧ child.participants.arbiter = some frozen.arbiterPubkey
  return verificationError.or
    (if exactParticipants then none else some "child participants do not match frozen plan")

def trancheRow (parentId : String) (frozen : TranchePlan) (tranche : TrancheDescriptor) :
    Option EscrowState → Except JsError PlanRow
  | none => do
    return ⟨← trancheChildId host parentId frozen.planId tranche.index, tranche.index,
      tranche.amountMsats, .created, false, some "missing child"⟩
  | some child => do
    let error ← childError host parentId frozen child
    return ⟨child.id, tranche.index, tranche.amountMsats, child.status, error.isNone, error⟩

def PlanScan.push (scan : PlanScan) (tranche : TrancheDescriptor) (found : Bool) (row : PlanRow) :
    PlanScan :=
  let settles := row.valid && row.status = .completed
    && tranche.index.strictEq (.ofInt scan.settledCount)
  { rows := scan.rows ++ [row]
    settledCount := if settles then scan.settledCount + 1 else scan.settledCount
    outstandingMsats :=
      if settles then scan.outstandingMsats - tranche.amountMsats else scan.outstandingMsats
    stoppedReason :=
      if found && !row.valid && scan.stoppedReason.isNone then
        some s!"Invalid tranche {tranche.index + 1}"
      else scan.stoppedReason }

def childrenByIndex (frozen : TranchePlan) (children : List EscrowState) :
    OrderedMap JsNumber EscrowState :=
  OrderedMap.empty.setAll (children.filterMap fun child =>
    (child.trancheChild.filter fun d => d.planId = frozen.planId).map fun d => (d.index, child))

/-- The loop of `derivePlanState`. -/
def scanTranches (parentId : String) (frozen : TranchePlan)
    (byIndex : OrderedMap JsNumber EscrowState) :
    List TrancheDescriptor → PlanScan → Except JsError PlanScan
  | [], scan => .ok scan
  | tranche :: rest, scan => do
    let child := byIndex.get tranche.index
    let row ← trancheRow host parentId frozen tranche child
    scanTranches parentId frozen byIndex rest (scan.push tranche child.isSome row)

def PlanScan.planState (frozen : TranchePlan) (scan : PlanScan) : PlanState :=
  let active := if scan.stoppedReason.isSome then none
    else scan.rows.find? fun row => row.index.strictEq (.ofInt scan.settledCount) && row.valid
  let missing := scan.rows.any fun row => row.error = some "missing child"
  { plan := frozen
    children := scan.rows
    settledCount := scan.settledCount
    outstandingMsats := scan.outstandingMsats
    activeChildId := active.map PlanRow.id
    stoppedReason := scan.stoppedReason
    nextSafeAction :=
      if scan.stoppedReason.isSome then .repairPlan
      else if missing then .publishMissingChildren
      else if (JsNumber.ofInt scan.settledCount).strictEq frozen.total then .complete
      else if active.any fun row => row.status = .created then .fundActiveChild
      else .settleActiveChild }

def derivePlanState (parent : EscrowState) (children : List EscrowState) :
    Except JsError (Option PlanState) :=
  match parent.tranchePlan with
  | none => .ok none
  | some frozen => do
    let scan ← scanTranches host parent.id frozen (childrenByIndex frozen children)
      frozen.tranches ⟨[], 0, frozen.totalMsats, none⟩
    return some (scan.planState frozen)

def canFundTranche (parent : EscrowState) (children : List EscrowState) (childId : String) :
    Except JsError Bool := do
  let plan ← derivePlanState host parent children
  return plan.any fun plan =>
    plan.activeChildId = some childId && plan.nextSafeAction = .fundActiveChild

end

end ChamaEscrow
