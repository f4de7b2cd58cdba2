import ChamaEscrow.Js.Value
import ChamaEscrow.Library.Guarded
import ChamaEscrow.Library.OrderedMap

/-!
# Escrow types

The data model of the escrow engine (`types.ts`): statuses, roles, the payload of each event kind,
the parsed event, and the state that the reducer folds them into.

A payload field that the parser checks has the type it was checked to have; one that the parser
passes on unchecked is a `JsValue`.  What a CREATE fixes for good is the record `TradeTerms`, which
`EscrowState` extends.  Fields that no rule of the engine reads (descriptive listing data, images,
revealed payment handles) are left out.
-/

namespace ChamaEscrow

open Js Library

/-! ### Statuses, roles and outcomes -/

/-- Where a trade stands. -/
inductive EscrowStatus
  | created
  | locked
  | approved
  | claimed
  | completed
  | expired
  | cancelled
  deriving DecidableEq

instance : ToString EscrowStatus where
  toString
    | .created => "CREATED"
    | .locked => "LOCKED"
    | .approved => "APPROVED"
    | .claimed => "CLAIMED"
    | .completed => "COMPLETED"
    | .expired => "EXPIRED"
    | .cancelled => "CANCELLED"

/-- `TERMINAL_STATES`: done as far as listings and chat are concerned. -/
def EscrowStatus.isTerminal (s : EscrowStatus) : Bool :=
  s = .completed || s = .expired || s = .cancelled

/-- `TRULY_TERMINAL_STATES`: no further event is accepted. -/
def EscrowStatus.isTrulyTerminal (s : EscrowStatus) : Bool := s = .completed || s = .cancelled

/-- The seats of a trade. -/
inductive Role
  | buyer
  | seller
  | arbiter
  deriving DecidableEq

instance : ToString Role where
  toString
    | .buyer => "buyer"
    | .seller => "seller"
    | .arbiter => "arbiter"

namespace Role

/-- `Object.values(Role)`. -/
def all : List Role := [buyer, seller, arbiter]

def ofText? (s : String) : Option Role := all.find? fun r => toString r = s

/-- The buyer or the seller: the two who can fund a trade and be paid by it. -/
def isPrincipal (r : Role) : Bool := r = buyer || r = seller

end Role

/-- What the votes decide: the sats go to the party that did not lock, or back to the one that
did. -/
inductive Outcome
  | release
  | refund
  deriving DecidableEq

instance : ToString Outcome where
  toString
    | .release => "release"
    | .refund => "refund"

def Outcome.ofText? (s : String) : Option Outcome :=
  [release, refund].find? fun o => toString o = s

/-- One value for each seat. -/
structure PerRole (α : Type*) where
  buyer : α
  seller : α
  arbiter : α
  deriving DecidableEq

namespace PerRole

variable {α : Type*}

/-- The value at a seat. -/
def get (p : PerRole α) : Role → α
  | .buyer => p.buyer
  | .seller => p.seller
  | .arbiter => p.arbiter

/-- The record with the value at one seat replaced. -/
def set (p : PerRole α) (r : Role) (a : α) : PerRole α :=
  match r with
  | .buyer => { p with buyer := a }
  | .seller => { p with seller := a }
  | .arbiter => { p with arbiter := a }

@[simp]
theorem get_buyer (p : PerRole α) : p.get .buyer = p.buyer := rfl

@[simp]
theorem get_seller (p : PerRole α) : p.get .seller = p.seller := rfl

@[simp]
theorem get_arbiter (p : PerRole α) : p.get .arbiter = p.arbiter := rfl

theorem get_set_same (p : PerRole α) (r : Role) (a : α) : (p.set r a).get r = a := by
  cases r <;> rfl

theorem get_set_of_ne (p : PerRole α) {r r' : Role} (a : α) (h : r' ≠ r) :
    (p.set r a).get r' = p.get r' := by
  cases r <;> cases r' <;> first | rfl | exact absurd rfl h

end PerRole

abbrev Votes := OrderedMap Role Outcome

/-! ### Errors -/

inductive ErrorCode
  | emptyChain
  | missingCreate
  | duplicateCreate
  | noState
  | unknownEventKind
  | conflictingCreates
  | creatorNotFound
  | creatorMismatch
  | missingPredecessor
  | invalidKind
  | missingEscrowId
  | typeMismatch
  | invalidPayload
  | parseError
  | invalidCreate
  | onchainSlicingUnsupported
  | settlementPolicyModeMismatch
  | invalidTrancheCoordinator
  | invalidChama
  | invalidChamaCreate
  | invalidChamaLock
  | chamaManifest
  | chamaSeatsFixed
  | chamaRefundOnly
  | chamaNoSubscription
  | planOnChild
  | planAlreadyStarted
  | invalidPlanStart
  | invalidPlanCoordinator
  | planParticipantMismatch
  | planArbiterNotAssigned
  | planAmountMismatch
  | planPolicyMismatch
  | keyOnNonChild
  | childKeyPlanMismatch
  | childKeyNetworkMismatch
  | unauthorizedChildKey
  | childKeyAlreadySet
  | invalidState
  | terminalState
  | expiryNotInTrade
  | tradeClosed
  | notParticipant
  | notInitiator
  | fundingTermsFrozen
  | invalidFundingTerms
  | roleConflict
  | roleTaken
  | roleMismatch
  | alreadyJoined
  | orderAlreadyFinalized
  | arbiterPoolEmpty
  | arbiterNotInPool
  | arbiterNotAssigned
  | lockTimestampSkew
  | wrongLocker
  | missingBuyerPubkey
  | missingArbiterPubkey
  | buyerPubkeyMismatch
  | arbiterPubkeyMismatch
  | duplicateParticipant
  | invalidOnchainLock
  | invalidShares
  | missingSelectedItems
  | unknownMenuItem
  | duplicateMenuItem
  | menuItemMismatch
  | quantityInvalid
  | quantityExceeded
  | orderNotFinalized
  | orderMismatch
  | invalidMenuTotal
  | unexpectedSelectedItems
  | amountMismatch
  | escrowModeMismatch
  | lockStepNotInForce
  | lockStepNoLock
  | lockStepOrder
  | lockWithdrawn
  | alreadyAccepted
  | alreadyReleased
  | invalidSettlementProof
  | sharesNotReleased
  | invalidShareEnvelope
  | notPoolArbiter
  | invalidHealOutcome
  | arbiterTooEarly
  | arbiterNotNeeded
  | substituteTooEarly
  | alreadyVoted
  | thresholdNotMet
  | outcomeMismatch
  | majorityMismatch
  | noOutcome
  | noWinner
  | wrongClaimer
  | notesHashMismatch
  | alreadySubscribed
  | notSubscription
  | invalidPeriod
  | periodDisputed
  deriving DecidableEq

/-- A rejection, with the event it is about. -/
structure ValidationError where
  code : ErrorCode
  message : String
  eventId : Option String
  deriving DecidableEq

/-- How a reducer step ends when it gives no state: with a rejection, or with an exception. -/
inductive Halt
  | reject (error : ValidationError)
  | throws (error : JsError)
  deriving DecidableEq

abbrev Step := Except Halt

def js {α : Type} (x : Except JsError α) : Step α := under Halt.throws x

@[simp]
theorem js_eq_ok {α : Type} {x : Except JsError α} {a : α} : js x = .ok a ↔ x = .ok a :=
  under_eq_ok

/-- `return err(code, message, eventId)` when the condition holds. -/
def guardErr (c : Prop) [Decidable c] (code : ErrorCode) (message eventId : String) : Step Unit :=
  rejectIf c (.reject ⟨code, message, eventId⟩)

@[simp]
theorem guardErr_eq_ok {c : Prop} [Decidable c] {code : ErrorCode} {message eventId : String}
    {u : Unit} : guardErr c code message eventId = .ok u ↔ ¬ c :=
  rejectIf_eq_ok

/-- `if (problem) return err(code, problem, eventId)` for a check that names its problem. -/
def guardNone (problem : Option String) (code : ErrorCode) (eventId : String) : Step Unit :=
  match problem with
  | some message => .error (.reject ⟨code, message, eventId⟩)
  | none => .ok ()

variable {problem : Option String}

@[simp]
theorem guardNone_eq_ok {code : ErrorCode} {eventId : String}
    {u : Unit} : guardNone problem code eventId = .ok u ↔ problem = none := by
  cases problem <;> simp [guardNone]

/-! ### Steps that return -/

/-- Whether a step ended with an exception. -/
def Halt.IsThrow : Halt → Prop
  | reject _ => False
  | throws _ => True

@[simp]
theorem Halt.not_isThrow_reject (error : ValidationError) : ¬ (reject error).IsThrow := id

@[simp]
theorem Halt.isThrow_throws (error : JsError) : (throws error).IsThrow := trivial

abbrev Returns {α : Type} (x : Step α) : Prop := Avoids Halt.IsThrow x

section Returns

variable {α : Type} {c : Prop} [Decidable c] {code : ErrorCode} {message eventId : String}

theorem returns_iff {x : Step α} : Returns x ↔ ∀ error, x ≠ .error (.throws error) := by
  constructor
  · exact fun h error he => h _ he trivial
  · rintro h (error | error) he
    · exact id
    · exact absurd he (h error)

@[simp]
theorem returns_guardErr : Returns (guardErr c code message eventId) := by
  simp [Returns, guardErr]

@[simp]
theorem returns_guardNone : Returns (guardNone problem code eventId) := by
  cases problem <;> simp [Returns, guardNone]

@[simp]
theorem returns_js {x : Except JsError α} : Returns (js x) ↔ ∃ a, x = .ok a := by
  cases x <;> simp [Returns, js]

end Returns

end ChamaEscrow
