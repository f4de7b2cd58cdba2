import ChamaEscrow.Engine.Circles
import ChamaEscrow.Engine.State
import ChamaEscrow.Library.Grouped
import Mathlib.Data.Finset.Lattice.Basic
import Mathlib.Data.Finset.Dedup
import Mathlib.Data.Finset.Empty

/-!
# The conduct of a member

`rotationConduct` (`stats.ts`): what the rotation shares in a client's view say about a member, the
rounds that were paid out to them, the shares they locked after that, and whether they broke the
circle after they collected.
-/

namespace ChamaEscrow

open Js Library

abbrev RoundShares := OrderedMap String (List EscrowState)

def isRotationShare (e : EscrowState) : Bool :=
  e.chamaPolicy = some .shareV2 && (truthyKey e.parent).isSome
    && e.chamaCircle.any fun circle => circle.pot = .rotationV2

def roundOf (e : EscrowState) : String := e.parent.getD ""

/-- `v2ByRound`. -/
def sharesByRound (escrows : List EscrowState) : RoundShares :=
  OrderedMap.group roundOf (escrows.filter isRotationShare)

/-- `circleOf`: the terms of a round, from the first of its shares. -/
def circleOf (rounds : RoundShares) (roundId : String) : Option CircleTerms :=
  (rounds.get roundId).bind fun shares => shares.head?.bind fun e => e.chamaCircle

/-- `anchorOf`: the first round of a chain, if the rounds in view lead there in some hops. -/
def anchorOf (rounds : RoundShares) : (hops : ℕ) → (roundId : String) → Option String
  | 0, _ => none
  | hops + 1, roundId =>
    (circleOf rounds roundId).bind fun circle =>
      (truthyKey circle.prevCircleId).bind fun prev =>
        if circle.roundIndex = 2 then some prev else anchorOf rounds hops prev

/-- How far a chain of rounds is followed. -/
def maxHops : ℕ := 64

/-- A round that was paid out to the member. -/
structure Payday where
  anchor : Option String
  roundIndex : JsNumber

def lockedCount (shares : List EscrowState) : JsNumber :=
  .ofInt (shares.filter fun e => e.hasLock).length

def paydayOf (rounds : RoundShares) (me : String) (nowSec : JsNumber)
    (round : String × List EscrowState) : Option Payday :=
  (circleOf rounds round.1).bind fun circle =>
    let seller := round.2.head?.bind fun e => e.participants.seller.map toLowerCase
    let filled := 0 < circle.seatThreshold ∧ circle.seatThreshold ≤ lockedCount round.2
    if seller = some me ∧ filled ∧ circle.roundEndSec ≤ nowSec then
      some ⟨anchorOf rounds maxHops round.1, circle.roundIndex⟩
    else none

/-- What `rotationConduct` returns. -/
structure RotationConduct where
  collectedRounds : ℕ
  sacrificeShareIds : Finset String
  brokeAtSec : Option JsNumber

def RotationConduct.brokeAfterCollecting (conduct : RotationConduct) : Bool :=
  conduct.brokeAtSec.isSome

/-- Whether the member is the buyer of a share. -/
def isMine (me : String) (e : EscrowState) : Bool :=
  e.participants.buyer.map toLowerCase = some me

/-- The proof that a round was short: a share that was refunded before the round ended. -/
def provesShort (circle : CircleTerms) (e : EscrowState) : Bool :=
  e.resolvedOutcome = some .refund && e.resolvedAt.any fun time => time < circle.roundEndSec

def judgeRound (rounds : RoundShares) (paydays : List Payday) (me : String) (nowSec : JsNumber)
    (conduct : RotationConduct) (round : String × List EscrowState) : RotationConduct :=
  match circleOf rounds round.1, anchorOf rounds maxHops round.1 with
  | some circle, some anchor =>
    let locked := round.2.filter fun e => e.hasLock
    let othersLocked := JsNumber.ofInt (locked.filter fun e => !isMine me e).length
    if !(paydays.any fun p => p.anchor = some anchor && p.roundIndex < circle.roundIndex) then
      conduct
    else if locked.any (isMine me) then { conduct with
      sacrificeShareIds := conduct.sacrificeShareIds
        ∪ ((round.2.filter (isMine me)).map fun e => e.id).toFinset }
    else if circle.fillDeadlineSec ≤ nowSec ∧ 0 < othersLocked ∧ othersLocked < circle.seatThreshold
        ∧ round.2.any (provesShort circle) then { conduct with
      brokeAtSec := some (conduct.brokeAtSec.elim circle.fillDeadlineSec fun time =>
        JsNumber.min time circle.fillDeadlineSec) }
    else conduct
  | _, _ => conduct

def rotationConduct (escrows : List EscrowState) (pubkey : String) (nowSec : JsNumber) :
    RotationConduct :=
  let me := toLowerCase pubkey
  let rounds := sharesByRound escrows
  let paydays := rounds.entries.filterMap (paydayOf rounds me nowSec)
  rounds.entries.foldl (judgeRound rounds paydays me nowSec)
    { collectedRounds := paydays.length, sacrificeShareIds := ∅, brokeAtSec := none }

end ChamaEscrow
