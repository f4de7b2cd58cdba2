import ChamaEscrow.Client.ClaimAndPayout

/-!
# What the hooks of a payout do

The world of the payouts: the stored journal, and a ledger of every payment that was dispatched,
which no program reads.  The wallet answers for the ledger: its operation log and its watch on an
operation tell the truth about it, and so does the code of an error of `payInvoice`.  Everything
else that a hook can reply is a choice.

On its own the world only settles or refunds the payments that are under way.
-/

namespace ChamaEscrow

open Js Library

/-! ### The world -/

/-- What has become of a payment. -/
inductive Fate
  | unsubmitted
  | live
  | settled
  | refunded
  deriving DecidableEq

/-- A call of `payInvoice`, with the operation under which the wallet knows it. -/
structure Dispatch where
  escrowId : String
  operationId : Option String
  fate : Fate
  deriving DecidableEq

/-- A payment that was never submitted, or has come back. -/
def Dispatch.isDead (d : Dispatch) : Bool := d.fate = .unsubmitted || d.fate = .refunded

/-- The journal, the payments dispatched over Lightning, and the escrows paid out on chain, in the
order of the calls. -/
structure PayoutWorld where
  journal : Stored Journal
  dispatches : List Dispatch := []
  pegOuts : List String := []

/-- What the caller of a hook does not control. -/
inductive PayoutChoice
  | storage (faults : Faults) (now : JsNumber) (message : String)
  | returns
  | throws (e : Thrown)
  | exports (exported : Option EcashExport)
  | balance (msats : JsNumber)
  | polls (readings : List Poll)
  | watch (outcome : PayoutOutcome)
  | log (outcome : EscrowOutcome) (operationId : Option String)
  | pays (fate : Fate) (operationId : String) (reply : Except Thrown (Option String))
  | resolves (index : ℕ) (fate : Fate)

namespace PayoutWorld

def watchFits (w : PayoutWorld) (operationId : String) : PayoutOutcome → Bool
  | .settled => w.dispatches.any fun d => d.operationId = some operationId && d.fate = .settled
  | .refunded =>
    (w.dispatches.any fun d => d.operationId = some operationId && d.fate = .refunded)
      && w.dispatches.all fun d => d.operationId ≠ some operationId || d.fate = .refunded
  | .unknown => true

def logFits (w : PayoutWorld) (escrowId : String) (operationId : Option String) :
    EscrowOutcome → Bool
  | .settled => w.dispatches.any fun d => d.escrowId = escrowId && d.fate = .settled
  | .inflight => w.dispatches.any fun d => d.escrowId = escrowId && d.fate = .live
      && (operationId.isNone || d.operationId = operationId)
  | .refunded => w.dispatches.all fun d => d.escrowId ≠ escrowId || d.isDead
  | .none => w.dispatches.all fun d => d.escrowId ≠ escrowId || d.fate = .unsubmitted
  | .unknown => true

/-- Whether the reply of `payInvoice` tells the truth about a payment with this fate. -/
def replyFits (fate : Fate) (operationId : String) : Except Thrown (Option String) → Bool
  | .ok op => fate = .settled && op.all (· = operationId)
  | .error e =>
    match e.code with
    | some .lnPayInflight => fate ≠ .unsubmitted && e.operationId.all (· = operationId)
    | some .lnPayRefunded => fate = .refunded
    | some .lnPaySubmitFailed => fate = .unsubmitted
    | _ => true

def isFresh (w : PayoutWorld) (operationId : String) : Bool :=
  operationId ≠ "" && w.dispatches.all fun d => d.operationId ≠ some operationId

def dispatch (w : PayoutWorld) (escrowId operationId : String) (fate : Fate) : PayoutWorld :=
  { w with dispatches := w.dispatches ++
    [⟨escrowId, if fate = .unsubmitted then none else some operationId, fate⟩] }

def withJournal (w : PayoutWorld) (journal : Stored Journal) : PayoutWorld := { w with journal }

/-- A payment under way settles or is refunded. -/
def resolve (w : PayoutWorld) (index : ℕ) (fate : Fate) : Option PayoutWorld :=
  match w.dispatches[index]? with
  | some d =>
    if d.fate = .live ∧ (fate = .settled ∨ fate = .refunded) then
      some { w with dispatches := w.dispatches.set index { d with fate } }
    else none
  | none => none

end PayoutWorld

/-! ### The hooks -/

def storageReply (message : String) : Except StorageError Unit → Except Thrown Unit
  | .ok () => .ok ()
  | .error _ => .error { message }

def returnsOrThrows : PayoutChoice → Option (Except Thrown Unit)
  | .returns => some (.ok ())
  | .throws e => some (.error e)
  | _ => none

def exportsOrThrows : PayoutChoice → Option (Except Thrown EcashExport)
  | .exports (some exported) => some (.ok exported)
  | .throws e => some (.error e)
  | _ => none

/-- The replies of the hooks that leave the journal and the ledger alone. -/
def PayoutWorld.answer (w : PayoutWorld) : (op : PayoutOp) → PayoutChoice → Option op.Reply
  | .prepareEcashExport, .exports exported => some (.ok exported)
  | .prepareEcashExport, .throws e => some (.error e)
  | .assertPayoutJournalReadable, .storage f _ message =>
    some (storageReply message (assertPayoutJournalReadable f w.journal))
  | .assertPayoutJournalWritable, .storage f _ message =>
    some (storageReply message (assertPayoutJournalWritable f w.journal))
  | .getPayoutRecord escrowId, .storage f _ _ => some (getPayoutRecord f w.journal escrowId)
  | .payOutcomeByEscrow escrowId _, .log outcome operationId =>
    if w.logFits escrowId operationId outcome then some (.ok (outcome, operationId)) else none
  | .payOutcomeByEscrow _ _, .throws e => some (.error e)
  | .awaitPayoutOutcome operationId, .watch outcome =>
    if w.watchFits operationId outcome then some (.ok outcome) else none
  | .awaitPayoutOutcome _, .throws e => some (.error e)
  | .clearPendingRedemption _, .returns => some ()
  | .completeClaim _, c => returnsOrThrows c
  | .markPendingRedemptionCredited _, c => returnsOrThrows c
  | .recordClaimCredit _ _, c => returnsOrThrows c
  | .claimAndRedeem _, c => returnsOrThrows c
  | .addOrTouchLightningHandle _, c => returnsOrThrows c
  | .claimAndExportEcash _, c => exportsOrThrows c
  | .exportEcash _, c => exportsOrThrows c
  | .getBalance _, .balance msats => some (.ok msats)
  | .getBalance _, .throws e => some (.error e)
  | .waitForBalanceGrowth baseline expected timeoutMs pollIntervalMs, .polls readings =>
    waitForBalanceGrowth baseline expected timeoutMs pollIntervalMs readings
  | _, _ => none

def journalHook (w : PayoutWorld)
    (run : Faults → JsNumber → Except StorageError Unit × Stored Journal) :
    PayoutChoice → Option (Except Thrown Unit × PayoutWorld)
  | .storage f now message =>
    some (storageReply message (run f now).1, w.withJournal (run f now).2)
  | _ => none

def clearHook (w : PayoutWorld) (escrowId : String) : PayoutChoice → Option (Unit × PayoutWorld)
  | .storage f _ _ => some ((), w.withJournal (clearPayoutRecord f escrowId w.journal))
  | _ => none

/-- The on-chain payment. -/
def payOnchainHook (w : PayoutWorld) (escrowId : String) :
    PayoutChoice → Option (Except Thrown Unit × PayoutWorld)
  | .returns => some (.ok (), { w with pegOuts := w.pegOuts ++ [escrowId] })
  | .throws e => some (.error e, w)
  | _ => none

/-- The Lightning payment. -/
def payInvoiceHook (w : PayoutWorld) (escrowId : String) :
    PayoutChoice → Option (Except Thrown (Option String) × PayoutWorld)
  | .pays fate operationId reply =>
    if w.isFresh operationId && PayoutWorld.replyFits fate operationId reply then
      some (reply, w.dispatch escrowId operationId fate)
    else none
  | _ => none

def performHook : (op : PayoutOp) → PayoutWorld → PayoutChoice → Option (op.Reply × PayoutWorld)
  | .markPayoutSettled escrowId operationId, w =>
    journalHook w fun f now => markPayoutSettled f now escrowId operationId w.journal
  | .recordPayoutSubmitted escrowId operationId amountMsats, w =>
    journalHook w fun f now =>
      recordPayoutSubmitted f now escrowId operationId (some amountMsats) w.journal
  | .recordPayoutIntent escrowId amountMsats, w =>
    journalHook w fun f now => recordPayoutIntent f now escrowId (some amountMsats) w.journal
  | .clearPayoutRecord escrowId, w => clearHook w escrowId
  | .payOnchain escrowId _, w => payOnchainHook w escrowId
  | .payInvoice escrowId _, w => payInvoiceHook w escrowId
  | op, w => fun c => (w.answer op c).map fun r => (r, w)

/-- The payments under way resolve on their own. -/
def payoutDrift (w : PayoutWorld) : PayoutChoice → Option PayoutWorld
  | .resolves index fate => w.resolve index fate
  | _ => none

abbrev payoutPlatform : Platform where
  Op := PayoutOp
  Reply := PayoutOp.Reply
  World := PayoutWorld
  Choice := PayoutChoice
  perform := performHook
  drift := payoutDrift

/-- A run of `runClaimAndPayout` for one escrow. -/
def payoutRun (escrowId : String) (o : ClaimAndPayoutOpts) :
    Prog payoutPlatform.toSignature ClaimAndPayoutTerminal :=
  runClaimAndPayout { o with escrowId }

/-- The escrow and the invoice of the payment that a run is about to make. -/
def paying : Option (Prog payoutPlatform.toSignature ClaimAndPayoutTerminal) →
    Option (String × String)
  | some (.call (.payInvoice escrowId bolt11) _) => some (escrowId, bolt11)
  | _ => none

theorem paying_eq_some {slot : Option (Prog payoutPlatform.toSignature ClaimAndPayoutTerminal)}
    {escrowId bolt11 : String} (h : paying slot = some (escrowId, bolt11)) :
    ∃ k, slot = some (.call (.payInvoice escrowId bolt11) k) := by
  unfold paying at h
  split at h
  · rename_i k
    obtain ⟨rfl, rfl⟩ := Prod.mk.inj (Option.some.inj h)
    exact ⟨k, rfl⟩
  · cases h

/-! ### What a hook leaves -/

/-- Whether a hook leaves the journal and the ledger of the Lightning payments alone. -/
def PayoutOp.isQuiet : PayoutOp → Bool
  | markPayoutSettled _ _ | recordPayoutSubmitted _ _ _ | recordPayoutIntent _ _
  | clearPayoutRecord _ | payInvoice _ _ => false
  | _ => true

variable {w w' : PayoutWorld} {c : PayoutChoice}

variable {r : Except Thrown Unit}

theorem journalHook_eq_some {run : Faults → JsNumber → Except StorageError Unit × Stored Journal}
    (h : journalHook w run c = some (r, w')) :
    ∃ f now message, r = storageReply message (run f now).1 ∧ w' = w.withJournal (run f now).2 := by
  unfold journalHook at h
  split at h
  · rename_i f now message
    obtain ⟨rfl, rfl⟩ := Prod.mk.inj (Option.some.inj h)
    exact ⟨f, now, message, rfl, rfl⟩
  · cases h

theorem storageReply_eq_ok {message : String} {result : Except StorageError Unit}
    (h : storageReply message result = .ok ()) : result = .ok () := by
  cases result with
  | ok => rfl
  | error e => cases h

variable {escrowId : String}

theorem clearHook_eq_some {r : Unit} (h : clearHook w escrowId c = some (r, w')) :
    ∃ f now message, c = .storage f now message ∧
      w' = w.withJournal (clearPayoutRecord f escrowId w.journal) := by
  unfold clearHook at h
  split at h
  · rename_i f now message
    exact ⟨f, now, message, rfl, (Prod.mk.inj (Option.some.inj h)).2.symm⟩
  · cases h

theorem payInvoiceHook_eq_some
    {r : Except Thrown (Option String)} (h : payInvoiceHook w escrowId c = some (r, w')) :
    ∃ fate operationId, w.isFresh operationId = true ∧
      PayoutWorld.replyFits fate operationId r = true ∧
          w' = w.dispatch escrowId operationId fate := by
  unfold payInvoiceHook at h
  split at h
  · rename_i fate operationId reply
    split_ifs at h with hfits
    obtain ⟨rfl, rfl⟩ := Prod.mk.inj (Option.some.inj h)
    rw [Bool.and_eq_true] at hfits
    exact ⟨fate, operationId, hfits.1, hfits.2, rfl⟩
  · cases h

theorem payOnchainHook_eq_some (h : payOnchainHook w escrowId c = some (r, w')) :
    (r = .ok () ∧ w' = { w with pegOuts := w.pegOuts ++ [escrowId] }) ∨ w' = w := by
  unfold payOnchainHook at h
  split at h
  · obtain ⟨rfl, rfl⟩ := Prod.mk.inj (Option.some.inj h)
    exact Or.inl ⟨rfl, rfl⟩
  · exact Or.inr (Prod.mk.inj (Option.some.inj h)).2.symm
  · cases h

variable {op : PayoutOp}

theorem answered {r : op.Reply} (h : (w.answer op c).map (fun r => (r, w)) = some (r, w')) :
    w.answer op c = some r ∧ w' = w := by
  obtain ⟨r', hr, heq⟩ := Option.map_eq_some_iff.mp h
  obtain ⟨rfl, rfl⟩ := Prod.mk.inj heq
  exact ⟨hr, rfl⟩

theorem quiet_perform (hop : op.isQuiet = true)
    {r : op.Reply} (h : performHook op w c = some (r, w')) :
    w'.journal = w.journal ∧ w'.dispatches = w.dispatches := by
  cases op with
  | markPayoutSettled | recordPayoutSubmitted | recordPayoutIntent | clearPayoutRecord
  | payInvoice => cases hop
  | payOnchain =>
    rcases payOnchainHook_eq_some h with ⟨-, rfl⟩ | rfl
    · exact ⟨rfl, rfl⟩
    · exact ⟨rfl, rfl⟩
  | _ =>
    obtain ⟨-, rfl⟩ := answered h
    exact ⟨rfl, rfl⟩

variable {fate : Fate} {index : ℕ}

/-- The world on its own changes nothing but the ledger of the Lightning payments. -/
theorem resolve_eq
    (h : w.resolve index fate = some w') : ∃ dispatches, w' = { w with dispatches } := by
  unfold PayoutWorld.resolve at h
  split at h
  · split_ifs at h
    exact ⟨_, (Option.some.inj h).symm⟩
  · cases h

theorem resolve_journal (h : w.resolve index fate = some w') : w'.journal = w.journal := by
  obtain ⟨dispatches, rfl⟩ := resolve_eq h
  rfl

theorem resolve_pegOuts (h : w.resolve index fate = some w') : w'.pegOuts = w.pegOuts := by
  obtain ⟨dispatches, rfl⟩ := resolve_eq h
  rfl

/-! ### Quiet programs -/

/-- Whether a hook has nothing to do with the records of the journal or with the payments over
Lightning and on chain. -/
def PayoutOp.isApart : PayoutOp → Bool
  | getPayoutRecord _ | payOnchain _ _ => false
  | op => op.isQuiet

theorem isQuiet_of_isApart (h : op.isApart = true) : op.isQuiet = true := by
  cases op with
  | getPayoutRecord => rfl
  | payOnchain => rfl
  | _ => exact h

/-- A program that keeps apart from the records and from these payments. -/
def Quiet {α : Type} (p : PayoutProg α) : Prop :=
  p.Everywhere fun (op : PayoutOp) _ => op.isApart = true

section Quiet

variable {id : String} {o : ClaimAndPayoutOpts}

theorem quiet_finishSettled : Quiet (finishSettled id) :=
  ⟨rfl, fun _ => ⟨rfl, fun _ => trivial⟩⟩

theorem quiet_exportDirectly : Quiet (exportDirectly o) := by
  refine ⟨rfl, fun r => ?_⟩
  cases r <;> trivial

variable {resumed : Bool}

theorem quiet_claimPhase : Quiet (claimPhase o resumed) := by
  cases resumed with
  | true => trivial
  | false =>
    refine ⟨rfl, fun r => ?_⟩
    cases r with
    | ok => trivial
    | error e =>
      change Quiet (if e.isBridgeThrew then _ else if _ then _ else if _ then _ else _)
      split_ifs <;> trivial

theorem quiet_growthPhase {baseline : JsNumber} {claimed : Claimed} :
    Quiet (growthPhase o baseline resumed claimed) := by
  cases claimed with
  | failedHard => trivial
  | settling =>
    cases resumed with
    | true => trivial
    | false => exact ⟨rfl, fun _ => trivial⟩

theorem quiet_settlePhase {baseline : JsNumber} {claimed : Claimed} :
    Quiet (settlePhase o baseline resumed claimed) := by
  refine Prog.everywhere_bind (fun _ _ h => h) quiet_growthPhase fun grew => ?_
  cases resumed with
  | true => trivial
  | false =>
    cases grew with
    | true => trivial
    | false =>
      refine ⟨rfl, fun r => ?_⟩
      change Quiet (if _ then _ else _)
      split_ifs
      · trivial
      · cases claimed <;> trivial

theorem quiet_creditPhase {settledBy : SettledBy} : Quiet (creditPhase o settledBy) := by
  cases settledBy with
  | cover => trivial
  | growth => exact ⟨rfl, fun _ => ⟨rfl, fun _ => ⟨rfl, fun _ => trivial⟩⟩⟩

theorem quiet_payEcash : Quiet (payEcash o) := by
  refine ⟨rfl, fun r => ?_⟩
  cases r <;> trivial

theorem quiet_finishPaid : Quiet (finishPaid o) := by
  refine ⟨rfl, fun _ => ⟨rfl, fun _ => ⟨rfl, fun _ => ?_⟩⟩⟩
  cases o.saveAfter with
  | false => trivial
  | true =>
    cases o.addressUsed.filter (· ≠ "") with
    | none => trivial
    | some address => exact ⟨rfl, fun _ => trivial⟩

theorem quiet_preflight : Quiet (preflight o) := by
  unfold preflight
  cases o.payoutKind with
  | ecash =>
    refine ⟨rfl, fun r => ?_⟩
    cases r with
    | error => trivial
    | ok exported => cases exported <;> trivial
  | lightning => trivial
  | onchain => trivial

/-! ### The guard and the payment over Lightning -/

/-- Whether a hook writes the journal and pays for one escrow alone, and nothing on chain. -/
def PayoutOp.ByLightning (id : String) : PayoutOp → Prop
  | .markPayoutSettled key _ | .recordPayoutSubmitted key _ _ | .recordPayoutIntent key _
  | .clearPayoutRecord key | .payInvoice key _ => key = id
  | .payOnchain _ _ => False
  | _ => True

def ByLightning {α : Type} (id : String) (p : PayoutProg α) : Prop :=
  p.Everywhere fun (op : PayoutOp) _ => op.ByLightning id

theorem byLightning_of_quiet {α : Type} {p : PayoutProg α} (hp : Quiet p) : ByLightning id p := by
  refine hp.imp fun op _ hop => ?_
  cases op with
  | markPayoutSettled | recordPayoutSubmitted | recordPayoutIntent | clearPayoutRecord
  | payInvoice | payOnchain => cases hop
  | _ => trivial

theorem byLightning_reconcileByEscrow {createdAt : JsNumber} {trustNone : Bool} :
    ByLightning o.escrowId (reconcileByEscrow o createdAt trustNone) := by
  refine ⟨trivial, fun r => ?_⟩
  cases r with
  | error => trivial
  | ok answer =>
    obtain ⟨outcome, operationId⟩ := answer
    cases outcome with
    | settled => exact ⟨rfl, fun _ => byLightning_of_quiet quiet_finishSettled⟩
    | inflight => exact ⟨rfl, fun _ => trivial⟩
    | refunded => exact ⟨rfl, fun _ => trivial⟩
    | none =>
      cases trustNone with
      | true => exact ⟨rfl, fun _ => trivial⟩
      | false => trivial
    | unknown => trivial

theorem byLightning_reattach {operationId : String} : ByLightning o.escrowId (reattach o operationId) := by
  refine ⟨trivial, fun r => ?_⟩
  cases r with
  | error => trivial
  | ok outcome =>
    cases outcome with
    | settled => exact ⟨rfl, fun _ => byLightning_of_quiet quiet_finishSettled⟩
    | refunded => exact ⟨rfl, fun _ => trivial⟩
    | unknown => trivial

/-- What `payoutGuard` does with a submitted payment. -/
def submittedGuard (o : ClaimAndPayoutOpts) (createdAt : JsNumber) (operationId : Option String) :
    PayoutProg (Option ClaimAndPayoutTerminal) :=
  match operationId.filter (· ≠ "") with
  | none => reconcileByEscrow o createdAt false
  | some operationId => reattach o operationId

theorem byLightning_payoutGuard : ByLightning o.escrowId (payoutGuard o) := by
  refine ⟨trivial, fun r => ?_⟩
  cases r with
  | error => trivial
  | ok =>
    refine ⟨trivial, fun prior => ?_⟩
    cases prior with
    | none => trivial
    | some prior =>
      obtain ⟨_, status, operationId, _, createdAt, _⟩ := prior
      cases status with
      | settled => exact byLightning_of_quiet quiet_finishSettled
      | intent => exact byLightning_reconcileByEscrow
      | submitted =>
        change ByLightning o.escrowId (submittedGuard o createdAt operationId)
        unfold submittedGuard
        cases operationId.filter (· ≠ "") with
        | none => exact byLightning_reconcileByEscrow
        | some => exact byLightning_reattach

theorem byLightning_payoutThrew {e : Thrown} : ByLightning o.escrowId (payoutThrew o e) := by
  obtain ⟨_, code, _, _, _, _⟩ := e
  cases code with
  | none => trivial
  | some code =>
    cases code with
    | lnPayInflight | lnPayRefunded | lnPaySubmitFailed => exact ⟨rfl, fun _ => trivial⟩
    | _ => trivial

theorem byLightning_payLightning : ByLightning o.escrowId (payLightning o) := by
  refine ⟨trivial, fun r => ?_⟩
  cases r with
  | error => trivial
  | ok =>
    refine ⟨rfl, fun r => ?_⟩
    cases r with
    | error => trivial
    | ok =>
      refine ⟨rfl, fun r => ?_⟩
      cases r with
      | error e =>
        change ByLightning o.escrowId (payoutThrew o e >>= fun t => pure (some t))
        exact Prog.everywhere_bind (fun _ _ h => h) byLightning_payoutThrew fun _ => trivial
      | ok operationId =>
        refine ⟨rfl, fun r => ?_⟩
        cases r <;> trivial

end Quiet

/-! ### Sample events -/

section Samples

variable {ι : Type}

def journals (i : ι) (f : Faults) : Event payoutPlatform ι ClaimAndPayoutOpts :=
  .step i (.storage f 0 "")

def sampleOpts : ClaimAndPayoutOpts :=
  { escrowId := "e", bolt11 := "lnbc", expectedDeltaMsats := 1000 }

def sampleStart (i : ι) : List (Event payoutPlatform ι ClaimAndPayoutOpts) :=
  [.start i sampleOpts, journals i .none, journals i .none]

def sampleRedeem (i : ι) : List (Event payoutPlatform ι ClaimAndPayoutOpts) :=
  [.step i (.balance 0), .step i .returns, .step i (.polls [⟨some 1000, 0⟩]),
    .step i (.balance 1000), .step i .returns, .step i .returns, journals i .none, journals i .none]

def samplePayment (i : ι) : List (Event payoutPlatform ι ClaimAndPayoutOpts) :=
  [.step i (.pays .live "a" (.error { code := some .lnPayInflight, operationId := some "a" })),
    journals i .none]

def isFaultless : Event payoutPlatform ι ClaimAndPayoutOpts → Bool
  | .step _ (.storage f _ _) => f = .none
  | _ => true

end Samples

end ChamaEscrow
