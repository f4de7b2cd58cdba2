import ChamaEscrow.Client.PayoutJournal
import ChamaEscrow.Library.Program

/-!
# Claiming and paying out

`runClaimAndPayout` of `claim-and-payout.ts`, the flow by which a winner's claim becomes a payment:
the guard that resumes an earlier payout, the claim, the settlement verdict, and the payment, over
Lightning, on chain or as ecash.  It is a program over the hooks that the app binds for it, each of
which it awaits or calls.

The reply of a hook that may throw is an `Except Thrown`.  What the hooks do to the world is
`Client.PayoutPlatform`.
-/

namespace ChamaEscrow

open Js Library

/-! ### Errors and results -/

inductive ClaimErrorCode
  | lnPayInflight
  | lnPayRefunded
  | lnPaySubmitFailed
  | fedProbeFailed
  | fedMismatch
  | other
  deriving DecidableEq

structure Thrown where
  message : String := ""
  code : Option ClaimErrorCode := none
  operationId : Option String := none
  claimPublished : Bool := false
  claimPrepared : Bool := false
  settlementFailed : Bool := false
  deriving DecidableEq

/-- `errorMessage`. -/
def Thrown.text (e : Thrown) (fallback : String) : String :=
  if e.message = "" then fallback else e.message

/-- `isBridgeThrewError`. -/
def Thrown.isBridgeThrew (e : Thrown) : Bool :=
  e.code = some .fedProbeFailed || e.code = some .fedMismatch

/-- A bearer note ready to hand out. -/
structure EcashExport where
  notes : String
  amountMsats : JsNumber
  claimPublished : Option Bool := none

inductive ClaimAndPayoutTerminal
  | done
  | ecashReady (exported : EcashExport)
  | claimFailed (error : String)
  | claimBridgeThrew (error : String)
  | claimPending (error : String)
  | payoutConfirming (error : String)
  | payoutFailed (error : String) (claimCompleted : Bool)

def payoutConfirmingCopy : String :=
  "Your payout was sent and is confirming. Don't tap Claim again — check your destination wallet. Chama will finish this claim once the payment confirms."

inductive PayoutKind
  | lightning
  | onchain
  | ecash
  deriving DecidableEq

/-- What the operation log says about the payouts of an escrow. -/
inductive EscrowOutcome
  | settled
  | refunded
  | inflight
  | none
  | unknown
  deriving DecidableEq

/-- What a watch on one operation says. -/
inductive PayoutOutcome
  | settled
  | refunded
  | unknown
  deriving DecidableEq

inductive BalanceGrowth
  | grew
  | timeout
  deriving DecidableEq

/-! ### Balances -/

def estimateLightningSendFeeMsats (invoiceAmountMsats : JsNumber) : JsNumber :=
  let amount := JsNumber.max 0 invoiceAmountMsats.floor
  2000 + ((amount * 5000).divBy 1000000).ceil + 500

/-- The binary search of `maxLightningPayoutSats`.  It halves the interval, so the fuel is only used
up by amounts beyond the exact integers. -/
def searchPayoutSats (balance : JsNumber) : (fuel : ℕ) → (lo hi : JsNumber) → JsNumber
  | 0, lo, _ => lo
  | fuel + 1, lo, hi =>
    if lo < hi then
      let mid := ((lo + hi).divBy 2).ceil
      let invoiceAmountMsats := mid * 1000
      if invoiceAmountMsats + estimateLightningSendFeeMsats invoiceAmountMsats ≤ balance then
        searchPayoutSats balance fuel mid hi
      else searchPayoutSats balance fuel lo (mid - 1)
    else lo

def maxLightningPayoutSats (balanceMsats : JsNumber) : JsNumber :=
  let balance := JsNumber.max 0 balanceMsats.floor
  searchPayoutSats balance 64 0 (balance.divBy 1000).floor

def balanceCoversPayout (balanceMsats expectedDeltaMsats : JsNumber) (kind : PayoutKind) : Bool :=
  let balance := JsNumber.max 0 balanceMsats.floor
  let expected := JsNumber.max 0 expectedDeltaMsats.floor
  if expected ≤ 0 then false
  else if kind = .onchain ∨ kind = .ecash then
    let grossSats := (expected.divBy 1000).floor
    0 < grossSats && grossSats ≤ (balance.divBy 1000).floor
  else
    let invoiceSats := maxLightningPayoutSats expected
    0 < invoiceSats && invoiceSats ≤ maxLightningPayoutSats balance

/-- One reading of the balance while the flow waits for it: a failed one has no amount. -/
structure Poll where
  balance : Option JsNumber
  elapsedMs : JsNumber

/-- The loop of `waitForBalanceGrowth` over the readings it makes.  A failed reading extends the
deadline by one interval, within the hard cap. -/
def pollBalance (baseline requiredDelta timeoutMs pollIntervalMs : JsNumber) :
    (failedReadExtensionMs : JsNumber) → List Poll → Option BalanceGrowth
  | _, [] => none
  | extension, poll :: rest =>
    let hardCapMs := timeoutMs * 3
    let extension :=
      if poll.balance.isSome then extension
      else JsNumber.min (extension + pollIntervalMs) (JsNumber.max 0 (hardCapMs - timeoutMs))
    if requiredDelta ≤ poll.balance.getD baseline - baseline then some .grew
    else if JsNumber.min (timeoutMs + extension) hardCapMs ≤ poll.elapsedMs then some .timeout
    else pollBalance baseline requiredDelta timeoutMs pollIntervalMs extension rest

/-- `waitForBalanceGrowth`: nine tenths of the expected amount count as its arrival. -/
def waitForBalanceGrowth (baseline expectedDeltaMsats timeoutMs pollIntervalMs : JsNumber)
    (polls : List Poll) : Option BalanceGrowth :=
  pollBalance baseline (expectedDeltaMsats * .ofRat (9 / 10)).floor timeoutMs pollIntervalMs 0 polls

/-! ### The hooks -/

/-- What the flow makes of a reading of the balance; the wallet is not told. -/
inductive BalanceUse
  | baseline (claimAlreadyPublished : Bool) (expectedDeltaMsats : JsNumber) (kind : PayoutKind)
  | cover (expectedDeltaMsats : JsNumber) (kind : PayoutKind)
  | trace

def BalanceUse.settles : BalanceUse → JsNumber → Bool
  | baseline claimAlreadyPublished expectedDeltaMsats kind, balanceMsats =>
    claimAlreadyPublished && balanceCoversPayout balanceMsats expectedDeltaMsats kind
  | cover expectedDeltaMsats kind, balanceMsats =>
    balanceCoversPayout balanceMsats expectedDeltaMsats kind
  | trace, _ => false

/-- The hooks of `RunClaimAndPayoutDeps`, and the reading loop and the credit ledger beside them. -/
inductive PayoutOp
  | prepareEcashExport
  | assertPayoutJournalReadable
  | getPayoutRecord (escrowId : String)
  | payOutcomeByEscrow (escrowId : String) (sinceMs : JsNumber)
  | awaitPayoutOutcome (operationId : String)
  | markPayoutSettled (escrowId : String) (operationId : Option String)
  | recordPayoutSubmitted (escrowId : String) (operationId : Option String) (amountMsats : JsNumber)
  | clearPayoutRecord (escrowId : String)
  | recordPayoutIntent (escrowId : String) (amountMsats : JsNumber)
  | assertPayoutJournalWritable
  | completeClaim (escrowId : String)
  | clearPendingRedemption (escrowId : String)
  | markPendingRedemptionCredited (escrowId : String)
  | recordClaimCredit (escrowId : String) (amountMsats : JsNumber)
  | claimAndExportEcash (escrowId : String)
  | claimAndRedeem (escrowId : String)
  | getBalance (use : BalanceUse)
  | waitForBalanceGrowth (baseline expectedDeltaMsats timeoutMs pollIntervalMs : JsNumber)
  | payOnchain (escrowId : String) (grossAmountSats : JsNumber)
  | exportEcash (amountMsats : JsNumber)
  | payInvoice (escrowId bolt11 : String)
  | addOrTouchLightningHandle (address : String)

abbrev PayoutOp.Reply : PayoutOp → Type
  | prepareEcashExport => Except Thrown (Option EcashExport)
  | getPayoutRecord _ => Option PayoutRecord
  | payOutcomeByEscrow _ _ => Except Thrown (EscrowOutcome × Option String)
  | awaitPayoutOutcome _ => Except Thrown PayoutOutcome
  | clearPayoutRecord _ | clearPendingRedemption _ => Unit
  | claimAndExportEcash _ | exportEcash _ => Except Thrown EcashExport
  | getBalance _ => Except Thrown JsNumber
  | waitForBalanceGrowth _ _ _ _ => BalanceGrowth
  | payInvoice _ _ => Except Thrown (Option String)
  | _ => Except Thrown Unit

abbrev payoutSignature : Signature := ⟨PayoutOp, PayoutOp.Reply⟩

abbrev PayoutProg := Prog payoutSignature

def hook (op : PayoutOp) : PayoutProg op.Reply := Prog.invoke (S := payoutSignature) op

/-- The arguments of `runClaimAndPayout`.  `invoiceError` is what `payoutInvoiceError` says of the
invoice. -/
structure ClaimAndPayoutOpts where
  escrowId : String
  bolt11 : String
  invoiceError : Option String := none
  expectedDeltaMsats : JsNumber
  payoutKind : PayoutKind := .lightning
  claimAlreadyPublished : Bool := false
  saveAfter : Bool := false
  addressUsed : Option String := none
  confirmTimeoutMs : JsNumber := 90000
  pollIntervalMs : JsNumber := 5000

/-! ### The guard -/

def publishCompleteBestEffort (escrowId : String) : PayoutProg Unit := do
  let _ ← hook (.completeClaim escrowId)
  return ()

def finishSettled (escrowId : String) : PayoutProg (Option ClaimAndPayoutTerminal) := do
  publishCompleteBestEffort escrowId
  hook (.clearPendingRedemption escrowId)
  return some .done

/-- `reconcileByEscrow`: asks the operation log for the payouts of the escrow; no terminal means to
pay afresh.  An empty log is trusted for an intent alone. -/
def reconcileByEscrow (o : ClaimAndPayoutOpts) (createdAt : JsNumber) (trustNone : Bool) :
    PayoutProg (Option ClaimAndPayoutTerminal) := do
  let answer ← hook (.payOutcomeByEscrow o.escrowId (createdAt - 3600000))
  let (outcome, operationId) :=
    match answer with
    | .ok found => found
    | .error _ => (.unknown, none)
  match outcome with
  | .settled =>
    -- When the record cannot be upgraded, the one there still blocks a payment.
    let _ ← hook (.markPayoutSettled o.escrowId operationId)
    finishSettled o.escrowId
  | .inflight =>
    let _ ← hook (.recordPayoutSubmitted o.escrowId operationId o.expectedDeltaMsats)
    return some (.payoutConfirming payoutConfirmingCopy)
  | .refunded =>
    hook (.clearPayoutRecord o.escrowId)
    return none
  | .none =>
    if trustNone then
      hook (.clearPayoutRecord o.escrowId)
      return none
    else return some (.payoutConfirming payoutConfirmingCopy)
  | .unknown => return some (.payoutConfirming payoutConfirmingCopy)

def reattach (o : ClaimAndPayoutOpts) (operationId : String) :
    PayoutProg (Option ClaimAndPayoutTerminal) := do
  let outcome :=
    match ← hook (.awaitPayoutOutcome operationId) with
    | .ok outcome => outcome
    | .error _ => .unknown
  match outcome with
  | .settled =>
    let _ ← hook (.markPayoutSettled o.escrowId (some operationId))
    finishSettled o.escrowId
  | .refunded =>
    hook (.clearPayoutRecord o.escrowId)
    return none
  | .unknown => return some (.payoutConfirming payoutConfirmingCopy)

def payoutGuard (o : ClaimAndPayoutOpts) : PayoutProg (Option ClaimAndPayoutTerminal) := do
  match ← hook .assertPayoutJournalReadable with
  | .error _ => return some (.payoutFailed
      "Can't check whether this trade was already paid out, because this device's payout record is unreadable. No payment was sent." false)
  | .ok () =>
    match ← hook (.getPayoutRecord o.escrowId) with
    | none => return none
    | some prior =>
      match prior.status with
      | .settled => finishSettled o.escrowId
      | .intent => reconcileByEscrow o prior.createdAt true
      | .submitted =>
        match prior.operationId.filter (· ≠ "") with
        | none => reconcileByEscrow o prior.createdAt false
        | some operationId => reattach o operationId

/-! ### The claim and its settlement -/

def exportDirectly (o : ClaimAndPayoutOpts) : PayoutProg ClaimAndPayoutTerminal := do
  match ← hook (.claimAndExportEcash o.escrowId) with
  | .ok exported => return .ecashReady exported
  | .error e => return .claimFailed (e.text "Couldn't prepare this ecash claim safely")

/-- What the claim leaves open: nothing, or that the mint failed for good with an error. -/
inductive Claimed
  | settling
  | failedHard (error : String)

def claimPhase (o : ClaimAndPayoutOpts) (resumed : Bool) :
    PayoutProg (Except ClaimAndPayoutTerminal Claimed) := do
  if resumed then return .ok .settling
  match ← hook (.claimAndRedeem o.escrowId) with
  | .ok () => return .ok .settling
  | .error e =>
    let error := e.text "Claim failed"
    if e.isBridgeThrew then return .error (.claimBridgeThrew error)
    else if (e.claimPublished || e.claimPrepared) && e.settlementFailed then
      return .ok (.failedHard error)
    else if e.claimPublished || e.claimPrepared then return .ok .settling
    else return .error (.claimFailed error)

def growthPhase (o : ClaimAndPayoutOpts) (baseline : JsNumber) (resumed : Bool)
    (claimed : Claimed) :
    PayoutProg Bool := do
  match claimed with
  | .failedHard _ => return false
  | .settling =>
    if resumed then return false
    let growth ← hook (.waitForBalanceGrowth baseline o.expectedDeltaMsats o.confirmTimeoutMs
      o.pollIntervalMs)
    return growth = .grew

inductive SettledBy
  | growth
  | cover

def settlePhase (o : ClaimAndPayoutOpts) (baseline : JsNumber) (resumed : Bool)
    (claimed : Claimed) :
    PayoutProg (Except ClaimAndPayoutTerminal SettledBy) := do
  let grew ← growthPhase o baseline resumed claimed
  if resumed then return .ok .cover
  if grew then return .ok .growth
  let covered :=
    match ← hook (.getBalance (.cover o.expectedDeltaMsats o.payoutKind)) with
    | .ok balance => balanceCoversPayout balance o.expectedDeltaMsats o.payoutKind
    | .error _ => false
  if covered then return .ok .cover
  match claimed with
  | .failedHard error => return .error (.claimFailed error)
  | .settling => return .error (.claimPending
      "Your sats are still arriving from the federation. They'll land shortly. If this trade stays settling, try the claim again.")

/-- What the growth of the balance proves is recorded; a failure to record it is let pass. -/
def creditPhase (o : ClaimAndPayoutOpts) (settledBy : SettledBy) : PayoutProg Unit := do
  match settledBy with
  | .cover => return ()
  | .growth =>
    -- The balance is read once more, for the traces.
    let _ ← hook (.getBalance .trace)
    let _ ← hook (.recordClaimCredit o.escrowId o.expectedDeltaMsats)
    let _ ← hook (.markPendingRedemptionCredited o.escrowId)
    return ()

/-! ### The payment -/

/-- What an error of the Lightning payment leaves in the journal, and how the run ends. -/
def payoutThrew (o : ClaimAndPayoutOpts) (e : Thrown) : PayoutProg ClaimAndPayoutTerminal := do
  match e.code with
  | some .lnPayInflight =>
    let _ ← hook (.recordPayoutSubmitted o.escrowId e.operationId o.expectedDeltaMsats)
    return .payoutConfirming payoutConfirmingCopy
  | some .lnPayRefunded | some .lnPaySubmitFailed =>
    hook (.clearPayoutRecord o.escrowId)
    return .payoutFailed (e.text "Lightning payment failed") false
  -- Nothing is known about the payment: the intent stays.
  | _ => return .payoutFailed (e.text "Lightning payment failed") false

def payLightning (o : ClaimAndPayoutOpts) : PayoutProg (Option ClaimAndPayoutTerminal) := do
  match ← hook .assertPayoutJournalWritable with
  | .error e => return some (.payoutFailed (e.text "Can't pay out safely right now — this device's storage is full or unavailable, so the anti-double-pay guard can't be saved. No payment was sent; free up space (or leave private browsing) and try again.") false)
  | .ok () =>
    match ← hook (.recordPayoutIntent o.escrowId o.expectedDeltaMsats) with
    | .error e => return some (.payoutFailed (e.text "Can't pay out safely right now — the anti-double-pay guard couldn't be saved. No payment was sent; try again.") false)
    | .ok () =>
      match ← hook (.payInvoice o.escrowId o.bolt11) with
      | .error e => return some (← payoutThrew o e)
      | .ok operationId =>
        match ← hook (.markPayoutSettled o.escrowId operationId) with
        | .ok () => return none
        | .error _ => return some (.payoutConfirming payoutConfirmingCopy)

/-- The on-chain payment, which leaves no trace in the journal. -/
def payOnchain (o : ClaimAndPayoutOpts) : PayoutProg (Option ClaimAndPayoutTerminal) := do
  match ← hook (.payOnchain o.escrowId (o.expectedDeltaMsats.divBy 1000).floor) with
  | .ok () => return none
  | .error e => return some (.payoutFailed (e.text "Onchain payout failed") false)

def payEcash (o : ClaimAndPayoutOpts) : PayoutProg (Option ClaimAndPayoutTerminal) := do
  match ← hook (.exportEcash o.expectedDeltaMsats) with
  | .ok exported => return some (.ecashReady exported)
  | .error e => return some (.payoutFailed (e.text "Ecash export failed") false)

/-- The payment. -/
def payoutPhase (o : ClaimAndPayoutOpts) : PayoutProg (Option ClaimAndPayoutTerminal) :=
  match o.payoutKind with
  | .onchain => payOnchain o
  | .ecash => payEcash o
  | .lightning => payLightning o

def finishPaid (o : ClaimAndPayoutOpts) : PayoutProg ClaimAndPayoutTerminal := do
  publishCompleteBestEffort o.escrowId
  hook (.clearPendingRedemption o.escrowId)
  let _ ← hook (.getBalance .trace)
  match o.saveAfter, o.addressUsed.filter (· ≠ "") with
  | true, some address =>
    let _ ← hook (.addOrTouchLightningHandle address)
    return .done
  | _, _ => return .done

/-! ### The flow -/

/-- The flow behind the guard, for a payout that leaves the wallet. -/
def claimAndPay (o : ClaimAndPayoutOpts) : PayoutProg ClaimAndPayoutTerminal := do
  match ← hook (.getBalance (.baseline o.claimAlreadyPublished o.expectedDeltaMsats o.payoutKind)) with
  | .error e => return .claimFailed (e.text "Couldn't read wallet balance")
  | .ok baseline =>
    let resumed := o.claimAlreadyPublished
      && balanceCoversPayout baseline o.expectedDeltaMsats o.payoutKind
    match ← claimPhase o resumed with
    | .error terminal => return terminal
    | .ok claimed =>
      match ← settlePhase o baseline resumed claimed with
      | .error terminal => return terminal
      | .ok settledBy =>
        creditPhase o settledBy
        match ← payoutPhase o with
        | some terminal => return terminal
        | none => finishPaid o

/-- What is refused, or resumed, before the guard. -/
def preflight (o : ClaimAndPayoutOpts) : PayoutProg (Option ClaimAndPayoutTerminal) := do
  match o.payoutKind with
  | .ecash =>
    match ← hook .prepareEcashExport with
    | .ok (some pending) => return some (.ecashReady pending)
    | .ok none => return none
    | .error e => return some (.payoutFailed (e.text "Ecash export cannot start safely") false)
  | .lightning => return o.invoiceError.map fun error => .payoutFailed error false
  | .onchain => return none

def runClaimAndPayout (o : ClaimAndPayoutOpts) : PayoutProg ClaimAndPayoutTerminal := do
  match ← preflight o with
  | some terminal => return terminal
  | none =>
    match ← payoutGuard o with
    | some terminal => return terminal
    | none =>
      match o.payoutKind with
      | .ecash => exportDirectly o
      | _ => claimAndPay o

end ChamaEscrow
