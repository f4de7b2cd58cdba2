import ChamaEscrow.Client.PayoutPlatform

/-!
# Draining a balance

`runRecoveryPayout` of `balance-recovery.ts` sends a balance that was left in the wallet out over
Lightning.  It shares the hooks and the journal of `runClaimAndPayout`: the journal is asked under
the escrow that the balance is believed to come from, the key of the drain.  Where the record shows
that it cannot be about this balance, the drain goes on without a key, and leaves the journal alone.

The wallet stamps the payment with the escrow in either case.
-/

namespace ChamaEscrow

open Js Library

/-- `traceContext`: where the balance is believed to come from.  The app names an escrow only
together with the amount. -/
structure RecoveryTrace where
  escrowId : String
  amountMsats : JsNumber

/-- The data of `RunRecoveryPayoutOpts`. -/
structure RecoveryPayoutOpts where
  bolt11 : String
  saveAfter : Bool := false
  addressUsed : Option String := none
  traceContext : Option RecoveryTrace := none

inductive RecoveryPayoutTerminal
  | done
  | payoutConfirming (error : String)
  | payoutFailed (error : String)

def recoveryConfirmingCopy : String :=
  "Your payout was sent and is confirming. Don't retry — check your destination wallet. Chama " ++
    "finishes this once it confirms."

def materialRecoveryMinSats : JsNumber := 2000

/-- The escrow under which a drain asks the journal, and with which the wallet stamps its payment:
empty for a balance of unknown origin. -/
def RecoveryPayoutOpts.key (o : RecoveryPayoutOpts) : String :=
  (o.traceContext.map RecoveryTrace.escrowId).getD ""

def RecoveryPayoutOpts.amountMsats (o : RecoveryPayoutOpts) : JsNumber :=
  (o.traceContext.map RecoveryTrace.amountMsats).getD 0

/-! ### The guard -/

def balanceStillMaterial : PayoutProg Bool := do
  match ← hook (.getBalance .trace) with
  | .ok balance =>
    return decide (materialRecoveryMinSats ≤ ((JsNumber.max 0 balance).divBy 1000).floor)
  | .error _ => return false

/-- How the guard ends a drain, or whether it leaves it its key. -/
abbrev RecoveryGuard := Except RecoveryPayoutTerminal Bool

def dropStaleKey : PayoutProg RecoveryGuard := do
  if ← balanceStillMaterial then return .ok false else return .error .done

def reattachRecovery (key : String) (operationId : Option String) : PayoutProg RecoveryGuard := do
  match operationId.filter (· ≠ "") with
  | none => return .error (.payoutConfirming recoveryConfirmingCopy)
  | some operationId =>
    let outcome :=
      match ← hook (.awaitPayoutOutcome operationId) with
      | .ok outcome => outcome
      | .error _ => .unknown
    match outcome with
    | .settled =>
      -- A record that cannot be upgraded is let pass.
      let _ ← hook (.markPayoutSettled key (some operationId))
      dropStaleKey
    | .refunded =>
      hook (.clearPayoutRecord key)
      return .ok true
    | .unknown => return .error (.payoutConfirming recoveryConfirmingCopy)

def heedRecord (key : String) : Option PayoutRecord → PayoutProg RecoveryGuard
  | none => return .ok true
  | some prior =>
    match prior.status with
    | .intent => return .ok false
    | .settled => dropStaleKey
    | .submitted => reattachRecovery key prior.operationId

def recoveryGuard (key : String) : PayoutProg RecoveryGuard := do
  heedRecord key (← hook (.getPayoutRecord key))

/-! ### The payment -/

def finishDrained (o : RecoveryPayoutOpts) : PayoutProg RecoveryPayoutTerminal := do
  match o.saveAfter, o.addressUsed.filter (· ≠ "") with
  | true, some address =>
    let _ ← hook (.addOrTouchLightningHandle address)
    let _ ← hook (.getBalance .trace)
    return .done
  | _, _ =>
    let _ ← hook (.getBalance .trace)
    return .done

/-- What follows a payment that was sent. -/
def drainPaid (o : RecoveryPayoutOpts) (operationId : Option String) :
    (keyed : Bool) → PayoutProg RecoveryPayoutTerminal
  | false => finishDrained o
  | true => do
    match ← hook (.markPayoutSettled o.key operationId) with
    | .ok () => finishDrained o
    | .error _ => return .payoutConfirming recoveryConfirmingCopy

/-- What follows an error of the payment: all but a payment under way counts as failed. -/
def drainThrew (o : RecoveryPayoutOpts) (e : Thrown) :
    (keyed : Bool) → PayoutProg RecoveryPayoutTerminal
  | false =>
    if e.code = some .lnPayInflight then return .payoutConfirming recoveryConfirmingCopy
    else return .payoutFailed (e.text "Lightning payment failed")
  | true => do
    if e.code = some .lnPayInflight then
      let _ ← hook (.recordPayoutSubmitted o.key e.operationId o.amountMsats)
      return .payoutConfirming recoveryConfirmingCopy
    else
      hook (.clearPayoutRecord o.key)
      return .payoutFailed (e.text "Lightning payment failed")

def drainBalance (o : RecoveryPayoutOpts) (keyed : Bool) : PayoutProg RecoveryPayoutTerminal := do
  match ← hook (.payInvoice o.key o.bolt11) with
  | .ok operationId => drainPaid o operationId keyed
  | .error e => drainThrew o e keyed

def drainGuarded (o : RecoveryPayoutOpts) : (keyed : Bool) → PayoutProg RecoveryPayoutTerminal
  | false => drainBalance o false
  | true => do
    match ← hook .assertPayoutJournalWritable with
    | .ok () => drainBalance o true
    | .error e =>
      return .payoutFailed (e.text ("Can't recover safely right now — this device's storage is " ++
        "full or unavailable, so the anti-double-pay guard can't be saved. No payment was sent; " ++
        "free up space and try again."))

def runRecoveryPayout (o : RecoveryPayoutOpts) : PayoutProg RecoveryPayoutTerminal := do
  if o.key = "" then drainGuarded o false
  else
    match ← recoveryGuard o.key with
    | .error terminal => return terminal
    | .ok keyed => drainGuarded o keyed

/-! ### Runs of either kind -/

/-- What runs on the journal. -/
inductive PayoutRun
  | claim (o : ClaimAndPayoutOpts)
  | recovery (o : RecoveryPayoutOpts)

def PayoutRun.escrowId : PayoutRun → String
  | .claim o => o.escrowId
  | .recovery o => o.key

def payoutFlow : PayoutRun → PayoutProg Unit
  | .claim o => do
    let _ ← runClaimAndPayout o
    return ()
  | .recovery o => do
    let _ ← runRecoveryPayout o
    return ()

/-! ### A run keeps to its escrow -/

/-- Whether a hook that writes the journal or pays is about an escrow. -/
def PayoutOp.KeepsTo (id : String) : PayoutOp → Prop
  | .markPayoutSettled key _ | .recordPayoutSubmitted key _ _ | .recordPayoutIntent key _
  | .clearPayoutRecord key | .payInvoice key _ => key = id
  | _ => True

def KeepsTo {α : Type} (id : String) (p : PayoutProg α) : Prop :=
  p.Everywhere fun (op : PayoutOp) _ => op.KeepsTo id

variable {α β : Type} {id : String} {o : ClaimAndPayoutOpts}

variable {p : PayoutProg α}

theorem keepsTo_bind {f : α → PayoutProg β} (hp : KeepsTo id p)
    (hf : ∀ a, KeepsTo id (f a)) : KeepsTo id (p >>= f) :=
  Prog.everywhere_bind (fun _ _ h => h) hp hf

theorem keepsTo_of_quiet (hp : Quiet p) : KeepsTo id p := by
  refine hp.imp fun op _ hop => ?_
  cases op with
  | markPayoutSettled | recordPayoutSubmitted | recordPayoutIntent | clearPayoutRecord
  | payInvoice => cases hop
  | _ => trivial

theorem keepsTo_of_byLightning (hp : ByLightning id p) : KeepsTo id p := by
  refine hp.imp fun op _ hop => ?_
  cases op with
  | markPayoutSettled | recordPayoutSubmitted | recordPayoutIntent | clearPayoutRecord
  | payInvoice => exact hop
  | _ => trivial

theorem keepsTo_payoutPhase : KeepsTo o.escrowId (payoutPhase o) := by
  unfold payoutPhase
  cases o.payoutKind with
  | onchain =>
    refine ⟨trivial, fun r => ?_⟩
    cases r <;> trivial
  | ecash => exact keepsTo_of_quiet quiet_payEcash
  | lightning => exact keepsTo_of_byLightning byLightning_payLightning

theorem keepsTo_claimAndPay : KeepsTo o.escrowId (claimAndPay o) := by
  refine ⟨trivial, fun r => ?_⟩
  cases r with
  | error => trivial
  | ok baseline =>
    change KeepsTo o.escrowId (claimPhase o _ >>= _)
    refine keepsTo_bind (keepsTo_of_quiet quiet_claimPhase) fun claimed => ?_
    cases claimed with
    | error => trivial
    | ok claimed =>
      refine keepsTo_bind (keepsTo_of_quiet quiet_settlePhase) fun settledBy => ?_
      cases settledBy with
      | error => trivial
      | ok settledBy =>
        refine keepsTo_bind (keepsTo_of_quiet quiet_creditPhase) fun _ => ?_
        refine keepsTo_bind keepsTo_payoutPhase fun terminal => ?_
        cases terminal with
        | none => exact keepsTo_of_quiet quiet_finishPaid
        | some => trivial

theorem keepsTo_runClaimAndPayout : KeepsTo o.escrowId (runClaimAndPayout o) := by
  refine keepsTo_bind (keepsTo_of_quiet quiet_preflight) fun terminal => ?_
  cases terminal with
  | some => trivial
  | none =>
    refine keepsTo_bind (keepsTo_of_byLightning byLightning_payoutGuard) fun terminal => ?_
    cases terminal with
    | some => trivial
    | none =>
      have hpay := keepsTo_claimAndPay (o := o)
      obtain ⟨_, _, _, _, payoutKind⟩ := o
      cases payoutKind with
      | ecash => exact keepsTo_of_quiet quiet_exportDirectly
      | lightning => exact hpay
      | onchain => exact hpay

section Recovery

variable {o : RecoveryPayoutOpts} {keyed : Bool}

theorem quiet_dropStaleKey : Quiet dropStaleKey := by
  refine ⟨rfl, fun r => ?_⟩
  cases r with
  | error => trivial
  | ok balance =>
    change Quiet (if _ then _ else _)
    split_ifs <;> trivial

theorem quiet_finishDrained : Quiet (finishDrained o) := by
  unfold finishDrained
  split
  · exact ⟨rfl, fun _ => ⟨rfl, fun _ => trivial⟩⟩
  · exact ⟨rfl, fun _ => trivial⟩

theorem keepsTo_reattachRecovery {operationId : Option String} :
    KeepsTo id (reattachRecovery id operationId) := by
  unfold reattachRecovery
  split
  · trivial
  · refine ⟨trivial, fun r => ?_⟩
    cases r with
    | error => trivial
    | ok outcome =>
      cases outcome with
      | settled => exact ⟨rfl, fun _ => keepsTo_of_quiet quiet_dropStaleKey⟩
      | refunded => exact ⟨rfl, fun _ => trivial⟩
      | unknown => trivial

theorem keepsTo_recoveryGuard : KeepsTo id (recoveryGuard id) := by
  refine ⟨trivial, fun prior => ?_⟩
  cases prior with
  | none => trivial
  | some prior =>
    obtain ⟨_, status, operationId, _, _, _⟩ := prior
    cases status with
    | intent => trivial
    | settled => exact keepsTo_of_quiet quiet_dropStaleKey
    | submitted => exact keepsTo_reattachRecovery

theorem keepsTo_drainBalance : KeepsTo o.key (drainBalance o keyed) := by
  refine ⟨rfl, fun r => ?_⟩
  cases r with
  | ok operationId =>
    cases keyed with
    | false => exact keepsTo_of_quiet quiet_finishDrained
    | true =>
      refine ⟨rfl, fun r => ?_⟩
      cases r with
      | ok => exact keepsTo_of_quiet quiet_finishDrained
      | error => trivial
  | error e =>
    cases keyed with
    | false =>
      change KeepsTo o.key (if _ then _ else _)
      split_ifs <;> trivial
    | true =>
      change KeepsTo o.key (if _ then _ else _)
      split_ifs <;> exact ⟨rfl, fun _ => trivial⟩

theorem keepsTo_drainGuarded : KeepsTo o.key (drainGuarded o keyed) := by
  cases keyed with
  | false => exact keepsTo_drainBalance
  | true =>
    refine ⟨trivial, fun r => ?_⟩
    cases r with
    | ok => exact keepsTo_drainBalance
    | error => trivial

theorem keepsTo_runRecoveryPayout : KeepsTo o.key (runRecoveryPayout o) := by
  unfold runRecoveryPayout
  split_ifs
  · exact keepsTo_drainGuarded
  · refine keepsTo_bind keepsTo_recoveryGuard fun r => ?_
    cases r with
    | error => trivial
    | ok keyed => exact keepsTo_drainGuarded

end Recovery

theorem keepsTo_payoutFlow (run : PayoutRun) : KeepsTo run.escrowId (payoutFlow run) := by
  cases run with
  | claim o => exact keepsTo_bind keepsTo_runClaimAndPayout fun _ => trivial
  | recovery o => exact keepsTo_bind keepsTo_runRecoveryPayout fun _ => trivial

end ChamaEscrow
