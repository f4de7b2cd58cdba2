import ChamaEscrow.Engine.State

/-!
# Trade ids, slices and plans

Which key a creator-tagged escrow id belongs to (`trade-identity.ts`), the settlement policy and the
slice cap of a CREATE (`slice-policy.ts`), and the shape of a frozen plan (`tranche-plan.ts`).
-/

namespace ChamaEscrow

open Js Library

/-! ### Creator-tagged ids -/

/-- Whether every character is a digit or a lower-case letter, of which there is one at least. -/
def isIdPart (part : List Char) : Bool :=
  !part.isEmpty && part.all fun c => c.isDigit || ('a' ≤ c && c ≤ 'z')

/-- `escrowIdCreatorTag`: the prefix of the creator's key in an id `sm_<time>_<tag>_<random>`. -/
def escrowIdCreatorTag (escrowId : String) : Option String :=
  match escrowId.toList.splitOn '_' with
  | [prefix_, time, tag, random] =>
    if prefix_ = ['s', 'm'] && isIdPart time && isLowerHex 16 (String.ofList tag)
        && isIdPart random then some (String.ofList tag)
    else none
  | _ => none

/-- `creatorMatchesEscrowId`: false only when the id names a creator and the key is another. -/
def creatorMatchesEscrowId (escrowId pubkey : String) : Bool :=
  (escrowIdCreatorTag escrowId).all fun tag =>
    tag.toList.isPrefixOf (toLowerCase pubkey).toList

/-! ### Slices -/

def settlementPolicyOnchainFull : String := "onchain-full-collateral-single-settlement-v1"

def settlementPolicyEcashSlices : String := "ecash-mutual-slices-v1"

def defaultSettlementPolicy : EscrowMode → String
  | .onchain => settlementPolicyOnchainFull
  | .ecash => settlementPolicyEcashSlices

def statedPolicy (policy : JsValue) (mode : EscrowMode) : JsValue :=
  policy.orElse (.str (defaultSettlementPolicy mode))

def maxSliceCount : JsNumber := 100

def maxSliceExposureMsats : ℕ := 2000000000

/-- `minSlicesForCap`: the fewest slices that keep each under the cap. -/
def minSlicesForCap (totalMsats : JsNumber) : Except JsError JsNumber :=
  if !totalMsats.isSafeInteger ∨ totalMsats ≤ 0 then
    .error (.error "totalMsats must be a positive safe integer")
  else .ok (JsNumber.max 1 (totalMsats.divBy maxSliceExposureMsats).ceil)

/-! ### Plans -/

/-- The tranches of a plan from position `index` on, checked against the slice cap and summed up
from `sum`. -/
def trancheSum (cap : Option JsNumber) :
    List TrancheDescriptor → (index : ℕ) → (sum : JsNumber) → Except String JsNumber
  | [], _, sum => .ok sum
  | tranche :: rest, index, sum =>
    if !tranche.index.strictEq (.ofInt index) ∨ !tranche.amountMsats.isSafeInteger
        ∨ tranche.amountMsats ≤ 0 then .error "invalid tranche descriptor"
    else if cap.any fun cap => cap < tranche.amountMsats then
      .error "tranche exceeds slice cap"
    else trancheSum cap rest (index + 1) (sum + tranche.amountMsats)

/-- `validatePlanStart`: what is wrong with a plan. -/
def validatePlanStart (plan : PlanStartPayload) : Option String :=
  if !isLowerHex 64 plan.planId ∨ !isLowerHex 64 plan.termsDigest then
    some "invalid plan or terms digest"
  else if !isLowerHex 64 plan.buyerPubkey ∨ !isLowerHex 64 plan.sellerPubkey
      ∨ !isLowerHex 64 plan.arbiterPubkey then some "invalid participant pubkey"
  else if plan.coordinatorPubkey ≠ plan.sellerPubkey then
    some "coordinator must be the parent initiator/seller"
  else if !plan.total.isInteger ∨ plan.total < 1 ∨ 100 < plan.total then
    some "invalid tranche count"
  else if !plan.totalMsats.isSafeInteger ∨ plan.totalMsats ≤ 0 then some "invalid total amount"
  else if !(JsNumber.ofInt plan.tranches.length).strictEq plan.total then
    some "tranche count mismatch"
  else if plan.sliceCount.any fun count => !count.strictEq plan.total then
    some "slice count mismatch"
  else if plan.sliceCapMsats.any fun cap => !cap.isSafeInteger || cap ≤ 0 then
    some "invalid slice cap"
  else
    match trancheSum plan.sliceCapMsats plan.tranches 0 0 with
    | .error problem => some problem
    | .ok sum => if sum.strictEq plan.totalMsats then none else some "tranche amount mismatch"

end ChamaEscrow
