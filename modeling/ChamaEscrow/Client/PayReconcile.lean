import ChamaEscrow.Client.PayoutPlatform
import ChamaEscrow.Js.Value

/-!
# The payouts of an escrow in the wallet's log

`payOutcomeByEscrow` of the browser wallet (`sdk-adapter.ts`).  The log entry of a Lightning send
carries the id of the escrow it pays.  The scan lists the newest operations of the wallet, reads
each send among them for this stamp, and the ones it finds once more for their outcome.

A send that cannot be read makes the scan blind, and a full page leaves older operations out.  Both
keep the scan from answering `none`; neither keeps it from answering `refunded`, so a refunded
payment hides a second one that the scan did not read.
-/

namespace ChamaEscrow

open Js Library

/-! ### Outcomes -/

/-- What the log says about one payment. -/
inductive PayReading
  | settled
  | refunded
  | pending
  | unknown
  deriving DecidableEq

def classifyPayOutcome : JsValue → PayReading
  | .undefined | .null => .pending
  | .str s =>
    if s = "success" then .settled
    else if s = "canceled" || s = "refunded" then .refunded
    else .pending
  | .obj fields =>
    let has (key : String) : Bool := key ∈ fields.map Prod.fst
    if has "success" || has "preimage" then .settled
    else if has "refunded" || has "canceled" then .refunded
    else if has "funded" || has "waiting_for_refund" || has "awaiting_change" then .pending
    else .unknown
  | _ => .unknown

/-- `getPayOperationOutcome`, on what the read of the entry answers; none if it throws. -/
def payOperationOutcome : Option JsValue → PayReading
  | none => .unknown
  | some log =>
    -- the terminal state is `outcome.outcome`, or `outcome` itself
    match log.field "outcome" with
    | .obj fields => classifyPayOutcome ((fields.lookup "outcome").getD (.obj fields))
    | outcome => classifyPayOutcome outcome

/-! ### The wallet -/

/-- An operation of the wallet: how it is listed, its entry in the log, whether the scan can read
the entry, what the read for the outcome answers, and what has become of the payment. -/
structure WalletOperation where
  listed : JsValue
  entry : JsValue
  readable : Bool := true
  answer : Option JsValue
  fate : Fate

namespace WalletOperation

def isSend (op : WalletOperation) : Bool :=
  (op.listed.field "kind").isText "ln" && (op.listed.field "type").isText "send"

def operationId? (op : WalletOperation) : Option String :=
  (op.listed.field "operationId").text?.filter (· ≠ "")

def isRead (op : WalletOperation) : Bool := op.operationId?.isSome && op.readable

def isFor (escrowId : String) (op : WalletOperation) : Bool :=
  (((op.entry.field "meta").field "extra_meta").field "chama_escrow_id").isText escrowId

/-- The payment is in flight or settled. -/
def isLive (op : WalletOperation) : Bool := op.fate = .live || op.fate = .settled

def Reported (op : WalletOperation) : Prop :=
  payOperationOutcome op.answer = .refunded → op.isLive = false

end WalletOperation

open WalletOperation

/-- The operations of a wallet, the newest first, and whether they can be listed. -/
structure WalletLog where
  lists : Bool := true
  operations : List WalletOperation

/-! ### The scan -/

def payReconcileScanLimit : ℕ := 200

def WalletLog.page (wallet : WalletLog) : List WalletOperation :=
  (wallet.operations.take payReconcileScanLimit).filter isSend

def WalletLog.found (wallet : WalletLog) (escrowId : String) : List WalletOperation :=
  wallet.page.filter fun op => op.isRead && op.isFor escrowId

/-- The loop over the sends that were found: a settled one decides, and one that is not refunded
counts as under way. -/
def payVerdict : List WalletOperation → (inflightOp refundedOp : Option String) →
    EscrowOutcome × Option String
  | [], some id, _ => (.inflight, some id)
  | [], none, refundedOp => (.refunded, refundedOp)
  | op :: rest, inflightOp, refundedOp =>
    match payOperationOutcome op.answer with
    | .settled => (.settled, op.operationId?)
    | .refunded => payVerdict rest inflightOp op.operationId?
    | .pending | .unknown => payVerdict rest op.operationId? refundedOp

def payOutcomeByEscrow (wallet : WalletLog) (escrowId : String) : EscrowOutcome × Option String :=
  if !wallet.lists then (.unknown, none)
  else
    let windowComplete := (wallet.operations.take payReconcileScanLimit).length
      < payReconcileScanLimit
    let scanBlind := wallet.page.any fun op => !op.isRead
    if (wallet.found escrowId).isEmpty then
      if windowComplete && !scanBlind then (.none, none) else (.unknown, none)
    else payVerdict (wallet.found escrowId) none none

/-! ### Soundness -/

variable {wallet : WalletLog} {escrowId : String} {op : WalletOperation}

/-- The verdict is `refunded` when every send that was found is. -/
theorem payVerdict_refunded_iff {ops : List WalletOperation} {inflightOp : Option String}
    (hids : ∀ op ∈ ops, op.operationId?.isSome = true) (refundedOp : Option String) :
    (payVerdict ops inflightOp refundedOp).1 = .refunded ↔
      inflightOp = none ∧ ∀ op ∈ ops, payOperationOutcome op.answer = .refunded := by
  induction ops generalizing inflightOp refundedOp with
  | nil => cases inflightOp <;> simp [payVerdict]
  | cons op rest ih =>
    obtain ⟨hid, hrest⟩ := List.forall_mem_cons.mp hids
    obtain ⟨id, hid⟩ := Option.isSome_iff_exists.mp hid
    rw [payVerdict, List.forall_mem_cons]
    cases hread : payOperationOutcome op.answer with
    | settled => simp
    | refunded => simp [ih hrest]
    | pending => simp [ih hrest, hid]
    | unknown => simp [ih hrest, hid]

theorem payVerdict_ne_none (ops : List WalletOperation) (inflightOp refundedOp : Option String) :
    (payVerdict ops inflightOp refundedOp).1 ≠ .none := by
  induction ops generalizing inflightOp refundedOp with
  | nil => cases inflightOp <;> simp [payVerdict]
  | cons op rest ih =>
    rw [payVerdict]
    split
    · simp
    · exact ih _ _
    · exact ih _ _
    · exact ih _ _

theorem mem_found : op ∈ wallet.found escrowId ↔
    (op ∈ wallet.operations.take payReconcileScanLimit ∧ op.isSend = true) ∧
      op.isRead = true ∧ op.isFor escrowId = true := by
  simp only [WalletLog.found, WalletLog.page, List.mem_filter, Bool.and_eq_true]

theorem isSome_of_found : ∀ op ∈ wallet.found escrowId, op.operationId?.isSome = true := by
  intro op hop
  have hread := (mem_found.mp hop).2.1
  rw [isRead, Bool.and_eq_true] at hread
  exact hread.1

theorem payOutcomeByEscrow_none (h : (payOutcomeByEscrow wallet escrowId).1 = .none) :
    wallet.found escrowId = [] ∧ (∀ op ∈ wallet.page, op.isRead = true) ∧
      wallet.operations.take payReconcileScanLimit = wallet.operations := by
  unfold payOutcomeByEscrow at h
  dsimp only at h
  split_ifs at h with hlists hempty hsure
  · rw [Bool.and_eq_true, decide_eq_true_eq, List.length_take] at hsure
    obtain ⟨hshort, hread⟩ := hsure
    refine ⟨List.isEmpty_iff.mp hempty, by simpa using hread, List.take_of_length_le ?_⟩
    omega
  · exact absurd h (payVerdict_ne_none _ _ _)

theorem payOutcomeByEscrow_refunded :
    (payOutcomeByEscrow wallet escrowId).1 = .refunded ↔
      wallet.lists = true ∧ wallet.found escrowId ≠ [] ∧
        ∀ op ∈ wallet.found escrowId, payOperationOutcome op.answer = .refunded := by
  have hverdict := @payVerdict_refunded_iff (wallet.found escrowId) none isSome_of_found none
  unfold payOutcomeByEscrow
  dsimp only
  split_ifs with hlists hempty hsure
  · simp_all
  · simp_all
  · simp_all
  · rw [hverdict]
    simp_all

/-- The sends that the scan leaves unread: the ones it cannot read, and those before its window. -/
def WalletLog.unread (wallet : WalletLog) : List WalletOperation :=
  wallet.page.filter (fun op => !op.isRead)
    ++ (wallet.operations.drop payReconcileScanLimit).filter isSend

theorem found_or_unread (hop : op ∈ wallet.operations) (hsend : op.isSend = true)
    (hfor : op.isFor escrowId = true) : op ∈ wallet.found escrowId ∨ op ∈ wallet.unread := by
  rw [← List.take_append_drop payReconcileScanLimit wallet.operations, List.mem_append] at hop
  rcases hop with hop | hop
  · by_cases hread : op.isRead = true
    · exact Or.inl (mem_found.mpr ⟨⟨hop, hsend⟩, hread, hfor⟩)
    · refine Or.inr (List.mem_append_left _ (List.mem_filter.mpr ⟨?_, by simpa using hread⟩))
      exact List.mem_filter.mpr ⟨hop, hsend⟩
  · exact Or.inr (List.mem_append_right _ (List.mem_filter.mpr ⟨hop, hsend⟩))

theorem mem_of_unread (h : op ∈ wallet.unread) : op ∈ wallet.operations ∧ op.isSend = true := by
  rcases List.mem_append.mp h with h | h
  · obtain ⟨hop, hsend⟩ := List.mem_filter.mp (List.mem_filter.mp h).1
    exact ⟨List.mem_of_mem_take hop, hsend⟩
  · obtain ⟨hop, hsend⟩ := List.mem_filter.mp h
    exact ⟨List.mem_of_mem_drop hop, hsend⟩

/-- A send for the escrow `e`, with the outcome that its entry holds. -/
def sampleSend (id outcome : String) (readable : Bool) (fate : Fate) : WalletOperation where
  listed := .obj [("kind", .str "ln"), ("type", .str "send"), ("operationId", .str id)]
  entry := .obj [("meta", .obj [("extra_meta", .obj [("chama_escrow_id", .str "e")])])]
  readable := readable
  answer := some (.obj [("outcome", .obj [("outcome", .str outcome)])])
  fate := fate

end ChamaEscrow
