import ChamaEscrow.Engine.TranchePlans

/-!
# Storefronts

The stock of a listing that sells by the unit (`storefront.ts`).  A purchase is a trade of its own
that the buyer writes; it counts against the stock when its terms are the listing's.  What remains,
what is unsold and what is oversold are three passes over the purchases a client has loaded.

The pools come unchecked from the CREATEs, so every function that compares them can throw.
-/

namespace ChamaEscrow

open Js Library

/-! ### The purchases -/

def childIsLocked (child : EscrowState) : Bool :=
  child.status ∈ [EscrowStatus.locked, .approved, .claimed, .completed]

def childIsHeld (child : EscrowState) (now : JsNumber) : Bool :=
  child.status = .created
    && child.joinHolds.buyer.any fun hold => now < hold.expiresAt + joinHoldLockGraceSeconds

def childCommitsStock (child : EscrowState) (now : JsNumber) : Bool :=
  childIsLocked child || childIsHeld child now

def childClaim (child : EscrowState) : JsNumber :=
  (child.claimedQuantity.filter fun q => q.isInteger && 0 < q).getD 1

def poolText (pool : JsValue) : Except JsError String := do
  let keys ← loweredKeys (← pool.items)
  return ",".intercalate (keys.dedup.insertionSort fun a b => textLe a b = true)

def sellerSigned (parent child : EscrowState) : Bool :=
  (truthyKey parent.participants.seller).any fun seller =>
    toLowerCase child.initiator.pubkey = toLowerCase seller

/-- A share of a circle, or a child of a tranche plan: they have checks of their own. -/
def judgedElsewhere (parent child : EscrowState) : Bool :=
  (child.chamaPolicy.isSome && parent.category = "chama")
    || (child.trancheChild.isSome && (parent.tranchePlan.isSome || sellerSigned parent child))

def storefrontChildMismatches (parent child : EscrowState) : Except JsError (List String) :=
  if child.parent ≠ some parent.id ∨ judgedElsewhere parent child = true then .ok []
  else do
    let seller := truthyKey parent.participants.seller
    let childPool ← poolText child.communityArbiters
    let parentPool ← poolText parent.communityArbiters
    let checks := [
      ("kind", child.chamaPolicy.isSome || child.trancheChild.isSome),
      ("category", child.category ≠ parent.category),
      ("price", !child.amountMsats.strictEq (parent.amountMsats * childClaim child)),
      ("federation", trim child.mintUrl ≠ trim parent.mintUrl),
      ("arbiters", childPool ≠ parentPool),
      ("seller", seller.isNone
        || child.participants.seller.map toLowerCase ≠ seller.map toLowerCase)]
    return (checks.filter Prod.snd).map Prod.fst

def matchingChildren (parent : EscrowState) : List EscrowState → Except JsError (List EscrowState)
  | [] => .ok []
  | child :: rest =>
    if child.parent ≠ some parent.id then matchingChildren parent rest
    else do
      let mismatches ← storefrontChildMismatches parent child
      let matching ← matchingChildren parent rest
      return if mismatches.isEmpty then child :: matching else matching

/-! ### The stock -/

/-- `parent.stock ?? 1`. -/
def EscrowState.stockUnits (parent : EscrowState) : JsNumber := parent.stock.getD 1

def sumClaims (parent : EscrowState) (children : List EscrowState)
    (predicate : EscrowState → Bool) : Except JsError JsNumber := do
  let matching ← matchingChildren parent children
  return ((matching.filter predicate).map childClaim).foldl (· + ·) 0

def remainingStock (parent : EscrowState) (children : List EscrowState) (now : JsNumber) :
    Except JsError JsNumber := do
  let units ← sumClaims parent children fun child => childCommitsStock child now
  return JsNumber.max 0 (parent.stockUnits - units)

def unsoldStock (parent : EscrowState) (children : List EscrowState) :
    Except JsError JsNumber := do
  let units ← sumClaims parent children childIsLocked
  return JsNumber.max 0 (parent.stockUnits - units)

def lockTime (child : EscrowState) : JsNumber := child.lock.lockedAt.getD child.createdAt

/-- The order of the locked children; those with one time keep the order they came in. -/
def lockedBefore (a b : EscrowState) : Bool := !decide (lockTime b < lockTime a)

/-- What the pass over the locked children has delivered, and whom it has reported. -/
structure Delivery where
  delivered : JsNumber
  oversold : List EscrowState

def Delivery.take (stock : JsNumber) (pass : Delivery) (child : EscrowState) : Delivery :=
  if stock < pass.delivered + childClaim child then
    { pass with oversold := pass.oversold ++ [child] }
  else { pass with delivered := pass.delivered + childClaim child }

def lockedInOrder (matching : List EscrowState) : List EscrowState :=
  (matching.filter childIsLocked).insertionSort fun a b => lockedBefore a b = true

def overcommittedChildren (parent : EscrowState) (children : List EscrowState) :
    Except JsError (List EscrowState) := do
  let matching ← matchingChildren parent children
  return ((lockedInOrder matching).foldl (Delivery.take parent.stockUnits) ⟨0, []⟩).oversold

end ChamaEscrow
