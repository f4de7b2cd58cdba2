import ChamaEscrow.Client.PayoutPlatform

/-!
# A Lightning payout is paid at most once

Runs of `runClaimAndPayout` for one escrow follow one another, each stopped anywhere.  The journal
and the operation log together are to keep a run from paying while an earlier payment may still
arrive.

What carries this is `PayoutInv`: at most one payment of the escrow is alive, none is without a
record, and a submitted record that names an operation names that one.  It can be lost in two ways,
both by a storage fault that the flow lets pass: the guard finds nothing because its read failed,
and the record that a refund should have removed stays.

* `paid_once`: without these two faults, every earlier payment is dead at each call of `payInvoice`.
* `paid_twice`: with the second one the winner is paid twice.
-/

namespace ChamaEscrow

open Js Library

/-! ### Payments that are alive -/

def Alive (escrowId : String) (operationId : Option String) (w : PayoutWorld) : Prop :=
  ∃ d ∈ w.dispatches, d.escrowId = escrowId ∧ d.operationId = operationId ∧ d.isDead = false

variable {id key : String} {op op' : Option String} {w w' : PayoutWorld}

theorem alive_iff_not_dead :
    (∀ op, ¬ Alive id op w) ↔ ∀ d ∈ w.dispatches, d.escrowId = id → d.isDead = true := by
  constructor
  · intro h d hd hid
    by_contra hdead
    exact h d.operationId ⟨d, hd, hid, rfl, by simpa using hdead⟩
  · rintro h op ⟨d, hd, hid, -, hdead⟩
    rw [h d hd hid] at hdead
    cases hdead

@[simp]
theorem alive_withJournal (journal : Stored Journal) :
    Alive id op (w.withJournal journal) ↔ Alive id op w := Iff.rfl

variable {operationId : String} {fate : Fate}

theorem alive_dispatch (h : Alive id op (w.dispatch key operationId fate)) :
    Alive id op w ∨ op = some operationId := by
  obtain ⟨d, hd, hid, hop, hdead⟩ := h
  rcases List.mem_append.mp hd with hd | hd
  · exact Or.inl ⟨d, hd, hid, hop, hdead⟩
  · obtain rfl := List.mem_singleton.mp hd
    refine Or.inr ?_
    rw [← hop]
    refine if_neg fun hfate => ?_
    simp [Dispatch.isDead, hfate] at hdead

theorem not_alive_dispatch (hfate : fate = .unsubmitted ∨
    fate = .refunded) (h : Alive id op (w.dispatch key operationId fate)) : Alive id op w := by
  obtain ⟨d, hd, hid, hop, hdead⟩ := h
  rcases List.mem_append.mp hd with hd | hd
  · exact ⟨d, hd, hid, hop, hdead⟩
  · obtain rfl := List.mem_singleton.mp hd
    rcases hfate with rfl | rfl <;> simp [Dispatch.isDead] at hdead

/-- The world on its own brings no payment to life. -/
theorem resolve_alive {index : ℕ} (h : w.resolve index fate = some w')
    (halive : Alive id op w') : Alive id op w := by
  unfold PayoutWorld.resolve at h
  split at h
  · rename_i d hd
    split_ifs at h with hlive
    obtain rfl := Option.some.inj h
    obtain ⟨e, he, hid, hop, hdead⟩ := halive
    rcases List.mem_or_eq_of_mem_set he with he | rfl
    · exact ⟨e, he, hid, hop, hdead⟩
    · exact ⟨d, List.mem_of_getElem? hd, hid, hop, by simp [Dispatch.isDead, hlive.1]⟩
  · cases h

/-! ### The invariant -/

def namedOperation : Option PayoutRecord → Option String
  | some r => if r.status = .submitted then r.operationId.filter (· ≠ "") else none
  | none => none

/-- What holds between any two steps of the runs for an escrow. -/
structure PayoutInv (id : String) (w : PayoutWorld) : Prop where
  one : ∀ op op', Alive id op w → Alive id op' w → op = op'
  recorded : recordFor id w.journal = none → ∀ op, ¬ Alive id op w
  named : ∀ operationId, namedOperation (recordFor id w.journal) = some operationId →
    ∀ op, Alive id op w → op = some operationId
  intent : ∀ r, recordFor id w.journal = some r → r.status = .intent → r.operationId = none

/-- The choices that count: the guard's read does not fail over a record, and a record that names an
operation is removed when it is to be. -/
def FaultsSpared : PayoutOp → PayoutWorld → PayoutChoice → Prop
  | .getPayoutRecord id, w, .storage f _ _ => f.read = true → recordFor id w.journal = none
  | .clearPayoutRecord id, w, .storage f _ _ =>
    (namedOperation (recordFor id w.journal)).isSome → f.Clears
  | _, _, _ => True

/-- At a payment of the escrow every earlier one is dead. -/
def PaysOnce : PayoutOp → PayoutWorld → Prop
  | .payInvoice id _, w => ∀ d ∈ w.dispatches, d.escrowId = id → d.isDead = true
  | _, _ => True

/-- What the runs for one escrow are held to. -/
def payoutDiscipline (id : String) : Discipline payoutPlatform where
  inv := PayoutInv id
  demand := PaysOnce
  allow := FaultsSpared
  rely w w' := w'.journal = w.journal ∧ ∀ key op, Alive key op w' → Alive key op w
  rely_refl _ := ⟨rfl, fun _ _ h => h⟩
  rely_trans h h' := ⟨h'.1.trans h.1, fun key op ha => h.2 key op (h'.2 key op ha)⟩

/-- What a run knows between two of its steps: something about the record of the escrow, and about
the operation of a payment that is alive. -/
structure Knows (id : String) (P : Option PayoutRecord → Prop) (R : Option String → Prop)
    (w : PayoutWorld) : Prop where
  record : P (recordFor id w.journal)
  alive : ∀ op, Alive id op w → R op

variable {P : Option PayoutRecord → Prop} {R : Option String → Prop}

theorem knows_stable : (payoutDiscipline id).Stable (Knows id P R) := by
  intro w w₁ h hrely _
  exact ⟨hrely.1 ▸ h.record, fun op hop => h.alive op (hrely.2 id op hop)⟩

theorem knows_nothing (w : PayoutWorld) : Knows id (fun _ => True) (fun _ => True) w :=
  ⟨trivial, fun _ _ => trivial⟩

/-- Nothing of the escrow is alive, and its record names no operation: it may be paid. -/
def Payable (id : String) : PayoutWorld → Prop :=
  Knows id (fun r => namedOperation r = none) fun _ => False

theorem alive_of_dispatches (h : w'.dispatches = w.dispatches) :
    Alive id op w' ↔ Alive id op w := by
  unfold Alive
  rw [h]

theorem PayoutInv.congr (h : PayoutInv id w) (hjournal : w'.journal = w.journal)
    (hdispatches : w'.dispatches = w.dispatches) : PayoutInv id w' := by
  obtain ⟨one, recorded, named, intent⟩ := h
  constructor
  · intro op op'
    rw [alive_of_dispatches hdispatches, alive_of_dispatches hdispatches]
    exact one op op'
  · intro hrecord op
    rw [alive_of_dispatches hdispatches]
    exact recorded (hjournal ▸ hrecord) op
  · intro operationId hnamed op
    rw [alive_of_dispatches hdispatches]
    exact named operationId (hjournal ▸ hnamed) op
  · rw [hjournal]
    exact intent

theorem PayoutInv.withJournal {journal : Stored Journal} (h : PayoutInv id w)
    (hrecorded : recordFor id journal = none → ∀ op, ¬ Alive id op w)
    (hnamed : ∀ operationId, namedOperation (recordFor id journal) = some operationId →
      ∀ op, Alive id op w → op = some operationId)
    (hintent : ∀ r, recordFor id journal = some r → r.status = .intent → r.operationId = none) :
    PayoutInv id (w.withJournal journal) :=
  ⟨h.one, hrecorded, hnamed, hintent⟩

/-! ### Quiet programs -/

theorem safe_quiet {α : Type} {p : PayoutProg α} (hp : Quiet p)
    (hw : Knows id P R w) : (payoutDiscipline id).Safe (fun _ => Knows id P R) p w := by
  refine Discipline.safe_of_everywhere knows_stable (hp.imp fun op _ hapart w₁ hw₁ hinv => ?_) hw
  have hop := isQuiet_of_isApart hapart
  refine ⟨?_, fun c r w' _ hperform => ?_⟩
  · cases op with
    | payInvoice => cases hop
    | _ => trivial
  · obtain ⟨hjournal, hdispatches⟩ := quiet_perform hop hperform
    refine ⟨hinv.congr hjournal hdispatches, hjournal ▸ hw₁.record, fun op' hop' => ?_⟩
    exact hw₁.alive op' ((alive_of_dispatches hdispatches).mp hop')

theorem safe_of_quiet {α : Type} {p : PayoutProg α} (hp : Quiet p) :
    (payoutDiscipline id).Safe (fun _ _ => True) p w :=
  Discipline.safe_mono (fun _ _ _ => trivial) (safe_quiet hp (knows_nothing w))

variable {o : ClaimAndPayoutOpts}

/-! ### The journal functions keep the invariant -/

variable {f : Faults} {now : JsNumber}

theorem PayoutInv.markPayoutSettled (h : PayoutInv id w) :
    PayoutInv id (w.withJournal (markPayoutSettled f now id op w.journal).2) := by
  rcases markPayoutSettled_cases f now id op w.journal with hsame | ⟨r, hr, hstatus⟩
  · rw [hsame]
    exact h
  · refine h.withJournal (fun hnone => ?_) (fun operationId hnamed => ?_) fun r' hr' hintent => ?_
    · rw [hr] at hnone
      cases hnone
    · rw [hr, namedOperation, hstatus, if_neg (by decide)] at hnamed
      cases hnamed
    · rw [hr] at hr'
      obtain rfl := Option.some.inj hr'
      rw [hstatus] at hintent
      cases hintent

variable {amount : Option JsNumber}

theorem PayoutInv.recordPayoutSubmitted (h : PayoutInv id w)
    (hop : ∀ operationId, op = some operationId → ∀ op', Alive id op' w → op' = some operationId) :
    PayoutInv id (w.withJournal (recordPayoutSubmitted f now id op amount w.journal).2) := by
  rcases recordPayoutSubmitted_cases f now id op amount w.journal with
    hsame | ⟨r, hr, hstatus, hfrom⟩
  · rw [hsame]
    exact h
  · refine h.withJournal (fun hnone => ?_) (fun operationId hnamed => ?_) fun r' hr' hintent => ?_
    · rw [hr] at hnone
      cases hnone
    · rw [hr, namedOperation, if_pos hstatus, Option.filter_eq_some_iff] at hnamed
      rcases hfrom with hgiven | ⟨r₀, hr₀, hopen, hkept⟩
      · exact hop operationId (hgiven ▸ hnamed.1)
      · refine h.named operationId ?_
        have hsubmitted : r₀.status = .submitted := by
          cases hs : r₀.status with
          | submitted => rfl
          | settled => exact absurd hs hopen
          | intent =>
            have hnone := h.intent r₀ hr₀ hs
            rw [hkept, hnone] at hnamed
            cases hnamed.1
        rw [hr₀, namedOperation, if_pos hsubmitted, ← hkept]
        exact Option.filter_eq_some_iff.mpr hnamed
    · rw [hr] at hr'
      obtain rfl := Option.some.inj hr'
      rw [hstatus] at hintent
      cases hintent

theorem PayoutInv.clearPayoutRecord (h : PayoutInv id w) (hdead : ∀ op, ¬ Alive id op w) :
    PayoutInv id (w.withJournal (clearPayoutRecord f id w.journal)) := by
  rcases clearPayoutRecord_cases f id w.journal with hsame | hnone
  · rw [hsame]
    exact h
  · refine h.withJournal (fun _ => hdead) (fun operationId hnamed => ?_) fun r hr => ?_
    · rw [hnone] at hnamed
      cases hnamed
    · rw [hnone] at hr
      cases hr

theorem PayoutInv.recordPayoutIntent (h : PayoutInv id w) (hdead : ∀ op, ¬ Alive id op w) :
    PayoutInv id (w.withJournal (recordPayoutIntent f now id amount w.journal).2) := by
  rcases recordPayoutIntent_cases f now id amount w.journal with hsame | ⟨r, hr, -, hnone⟩
  · rw [hsame]
    exact h
  · refine h.withJournal (fun _ => hdead)
      (fun _ _ op hop => absurd hop (hdead op)) fun r' hr' _ => ?_
    rw [hr] at hr'
    obtain rfl := Option.some.inj hr'
    exact hnone

/-! ### The guard -/

section Calls

variable {α : Type} {Q : α → PayoutWorld → Prop}

theorem safe_hook {hook : PayoutOp} {k : hook.Reply → PayoutProg α} (hquiet : hook.isQuiet = true)
    (hw : Knows id P R w)
    (h : ∀ w₁ c r w₂, PayoutInv id w₁ → FaultsSpared hook w₁ c →
      performHook hook w₁ c = some (r, w₂) → Knows id P R w₂ →
        (payoutDiscipline id).Safe Q (k r) w₂) :
    (payoutDiscipline id).Safe Q (.call hook k) w := by
  refine Discipline.safe_call knows_stable hw fun w₁ hw₁ hinv => ⟨?_, ?_⟩
  · cases hook with
    | payInvoice => cases hquiet
    | _ => trivial
  · intro c r w₂ hallow hperform
    obtain ⟨hjournal, hdispatches⟩ := quiet_perform hquiet hperform
    have hw₂ : Knows id P R w₂ := by
      refine ⟨hjournal ▸ hw₁.record, fun op hop => hw₁.alive op ?_⟩
      exact (alive_of_dispatches hdispatches).mp hop
    exact ⟨hinv.congr hjournal hdispatches, h w₁ c r w₂ hinv hallow hperform hw₂⟩

variable {k : Except Thrown Unit → PayoutProg α}

theorem safe_markPayoutSettled (h : ∀ r w', (payoutDiscipline id).Safe Q (k r) w') :
    (payoutDiscipline id).Safe Q (.call (.markPayoutSettled id op) k) w := by
  refine Discipline.safe_call knows_stable (knows_nothing w) fun w₁ _ hinv => ⟨trivial, ?_⟩
  intro c r w₂ _ hperform
  obtain ⟨f, now, message, -, rfl⟩ := journalHook_eq_some hperform
  exact ⟨hinv.markPayoutSettled, h r _⟩

theorem safe_recordPayoutSubmitted {amount : JsNumber}
    (hw : Knows id P (fun op' => op = none ∨ op' = op) w)
    (h : ∀ r w', (payoutDiscipline id).Safe Q (k r) w') :
    (payoutDiscipline id).Safe Q (.call (.recordPayoutSubmitted id op amount) k) w := by
  refine Discipline.safe_call knows_stable hw fun w₁ hw₁ hinv => ⟨trivial, ?_⟩
  intro c r w₂ _ hperform
  obtain ⟨f, now, message, -, rfl⟩ := journalHook_eq_some hperform
  refine ⟨hinv.recordPayoutSubmitted fun operationId hop op' halive => ?_, h r _⟩
  rcases hw₁.alive op' halive with hnone | hsame
  · rw [hnone] at hop
    cases hop
  · exact hsame.trans hop

theorem safe_clearPayoutRecord {k : Unit → PayoutProg α} (hw : Knows id P (fun _ => False) w)
    (h : ∀ w', Payable id w' → (payoutDiscipline id).Safe Q (k ()) w') :
    (payoutDiscipline id).Safe Q (.call (.clearPayoutRecord id) k) w := by
  refine Discipline.safe_call knows_stable hw fun w₁ hw₁ hinv => ⟨trivial, ?_⟩
  intro c r w₂ hallow hperform
  obtain ⟨f, now, message, rfl, rfl⟩ := clearHook_eq_some hperform
  refine ⟨hinv.clearPayoutRecord hw₁.alive, h _ ⟨?_, hw₁.alive⟩⟩
  change namedOperation (recordFor id (clearPayoutRecord f id w₁.journal)) = none
  by_cases hclears : f.Clears
  · rw [recordFor_clearPayoutRecord hclears]
    rfl
  · -- The clear may have failed, but then the record names no operation.
    have hunnamed : namedOperation (recordFor id w₁.journal) = none := by
      by_contra hnamed
      exact hclears (hallow (Option.isSome_iff_ne_none.mpr hnamed))
    rcases clearPayoutRecord_cases f id w₁.journal with hsame | hnone
    · rw [hsame]
      exact hunnamed
    · rw [hnone]
      rfl

end Calls

def Passed (id : String) (terminal : Option ClaimAndPayoutTerminal) (w : PayoutWorld) : Prop :=
  terminal = none → Payable id w

theorem safe_finishSettled : (payoutDiscipline id).Safe (Passed id) (finishSettled id) w := by
  refine safe_hook rfl (knows_nothing w) fun _ _ _ w₁ _ _ _ hw₁ => ?_
  exact safe_hook rfl hw₁ fun _ _ _ w₂ _ _ _ _ => nofun

variable {outcome : EscrowOutcome}

/-- The operation log tells what is alive: nothing after a refund or without a payment, and the
operation that it names when a payment is under way. -/
theorem alive_of_log (hinv : PayoutInv id w)
    (hfits : w.logFits id op outcome = true) (halive : Alive id op' w) :
    outcome ≠ .refunded ∧ outcome ≠ .none ∧ (outcome = .inflight → op = none ∨ op' = op) := by
  obtain ⟨d, hd, hid, hop, hdead⟩ := halive
  refine ⟨?_, ?_, ?_⟩
  · rintro rfl
    have hall := List.all_eq_true.mp hfits d hd
    simp [hid, hdead] at hall
  · rintro rfl
    have hall := List.all_eq_true.mp hfits d hd
    simp [hid] at hall
    simp [Dispatch.isDead, hall] at hdead
  · rintro rfl
    obtain ⟨e, he, hfit⟩ := List.any_eq_true.mp hfits
    simp only [Bool.and_eq_true, Bool.or_eq_true, decide_eq_true_eq, Option.isNone_iff_eq_none]
      at hfit
    obtain ⟨⟨hid, hlive⟩, hnamed⟩ := hfit
    refine hnamed.imp_right fun hnamed => ?_
    refine hinv.one _ _ ⟨d, hd, ‹_›, hop, hdead⟩ ⟨e, he, hid, hnamed, ?_⟩
    simp [Dispatch.isDead, hlive]

variable {c : PayoutChoice}

theorem log_eq_some {sinceMs : JsNumber} {operationId : Option String}
    (h : performHook (.payOutcomeByEscrow id sinceMs) w c = some (.ok (outcome, operationId), w')) :
    w' = w ∧ w.logFits id operationId outcome = true := by
  obtain ⟨hanswer, rfl⟩ := answered h
  refine ⟨rfl, ?_⟩
  cases c with
  | log =>
    dsimp only [PayoutWorld.answer] at hanswer
    split_ifs at hanswer with hfits
    cases hanswer
    exact hfits
  | throws => cases hanswer
  | _ => cases hanswer

/-- A run that asks the log goes on only when nothing is alive. -/
theorem safe_reconcileByEscrow {createdAt : JsNumber} {trustNone : Bool}
    (hw : Knows o.escrowId (fun r => namedOperation r = none) R w) :
    (payoutDiscipline o.escrowId).Safe (Passed o.escrowId)
      (reconcileByEscrow o createdAt trustNone) w := by
  refine safe_hook rfl hw fun w₁ c r w₂ hinv _ hperform hw₂ => ?_
  cases r with
  | error e => exact nofun
  | ok answer =>
    obtain ⟨outcome, operationId⟩ := answer
    obtain ⟨rfl, hfits⟩ := log_eq_some hperform
    cases outcome with
    | settled => exact safe_markPayoutSettled fun _ _ => safe_finishSettled
    | inflight =>
      refine safe_recordPayoutSubmitted (P := fun _ => True) ⟨trivial, fun op hop => ?_⟩
        fun _ _ => nofun
      exact (alive_of_log hinv hfits hop).2.2 rfl
    | refunded =>
      refine safe_clearPayoutRecord (P := fun _ => True) ⟨trivial, fun op hop => ?_⟩
        fun w' hw' _ => hw'
      exact (alive_of_log hinv hfits hop).1 rfl
    | none =>
      cases trustNone with
      | false => exact nofun
      | true =>
        refine safe_clearPayoutRecord (P := fun _ => True) ⟨trivial, fun op hop => ?_⟩
          fun w' hw' _ => hw'
        exact (alive_of_log hinv hfits hop).2.1 rfl
    | unknown => exact nofun

theorem watch_refunded
    (h : performHook (.awaitPayoutOutcome operationId) w c = some (.ok .refunded, w')) :
    w' = w ∧ ¬ Alive id (some operationId) w := by
  obtain ⟨hanswer, rfl⟩ := answered h
  refine ⟨rfl, ?_⟩
  rintro ⟨d, hd, -, hop, hdead⟩
  have hfits : w'.watchFits operationId .refunded = true := by
    cases c with
    | watch =>
      dsimp only [PayoutWorld.answer] at hanswer
      split_ifs at hanswer with hfits
      cases hanswer
      exact hfits
    | _ => cases hanswer
  have hall := List.all_eq_true.mp (Bool.and_eq_true_iff.mp hfits).2 d hd
  simp only [hop, ne_eq, not_true, decide_false, Bool.false_or, decide_eq_true_eq] at hall
  simp [Dispatch.isDead, hall] at hdead

theorem safe_reattach (hw : Knows o.escrowId (fun r => namedOperation r = some operationId) R w) :
    (payoutDiscipline o.escrowId).Safe (Passed o.escrowId) (reattach o operationId) w := by
  refine safe_hook rfl hw fun w₁ c r w₂ hinv _ hperform hw₂ => ?_
  cases r with
  | error e => exact nofun
  | ok outcome =>
    cases outcome with
    | settled => exact safe_markPayoutSettled fun _ _ => safe_finishSettled
    | refunded =>
      obtain ⟨rfl, hdead⟩ : w₂ = w₁ ∧ ¬ Alive o.escrowId (some operationId) w₁ :=
        watch_refunded hperform
      refine safe_clearPayoutRecord (P := fun _ => True) ⟨trivial, fun op hop => ?_⟩
        fun w' hw' _ => hw'
      -- Only the operation that the record names could have been alive.
      rw [hinv.named operationId hw₂.record op hop] at hop
      exact hdead hop
    | unknown => exact nofun

/-- What the guard reads is the record, since its read does not fail over one. -/
theorem read_eq_record {prior : Option PayoutRecord}
    (hallow : FaultsSpared (.getPayoutRecord id) w c)
    (h : performHook (.getPayoutRecord id) w c = some (prior, w')) :
    w' = w ∧ prior = recordFor id w.journal := by
  obtain ⟨hanswer, rfl⟩ := answered h
  refine ⟨rfl, ?_⟩
  cases c with
  | storage f now message =>
    rw [← Option.some.inj hanswer, getPayoutRecord_eq]
    split_ifs with hread
    · exact (hallow hread).symm
    · rfl
  | _ => cases hanswer

theorem safe_payoutGuard :
    (payoutDiscipline o.escrowId).Safe (Passed o.escrowId) (payoutGuard o) w := by
  refine safe_hook rfl (knows_nothing w) fun _ _ r w _ _ _ _ => ?_
  cases r with
  | error => exact nofun
  | ok =>
    refine safe_hook rfl (knows_nothing w) fun w₁ c prior w₂ hinv hallow hperform _ => ?_
    obtain ⟨rfl, hprior⟩ := read_eq_record hallow hperform
    cases prior with
    | none => exact fun _ => ⟨by rw [← hprior]; rfl, hinv.recorded hprior.symm⟩
    | some prior =>
      have hreconcile {createdAt : JsNumber} {trustNone : Bool}
          (hnamed : namedOperation (some prior) = none) :
          (payoutDiscipline o.escrowId).Safe (Passed o.escrowId)
            (reconcileByEscrow o createdAt trustNone) w₂ :=
        safe_reconcileByEscrow (R := fun _ => True) ⟨hprior ▸ hnamed, fun _ _ => trivial⟩
      obtain ⟨escrowId, status, operationId, amountMsats, createdAt, settledAt⟩ := prior
      cases status with
      | settled => exact safe_finishSettled
      | intent => exact hreconcile rfl
      | submitted =>
        change (payoutDiscipline o.escrowId).Safe (Passed o.escrowId)
          (submittedGuard o createdAt operationId) w₂
        unfold submittedGuard
        cases hnamed : operationId.filter (· ≠ "") with
        | none => exact hreconcile hnamed
        | some operationId =>
          refine safe_reattach (R := fun _ => True) ⟨?_, fun _ _ => trivial⟩
          rw [← hprior]
          exact hnamed

/-! ### The payment -/

theorem safe_payoutThrew {e : Thrown}
    (hw : Knows o.escrowId P (fun op => op = some operationId ∧ fate ≠ .unsubmitted ∧
        fate ≠ .refunded) w) (hfits : PayoutWorld.replyFits fate operationId (.error e) = true) :
    (payoutDiscipline o.escrowId).Safe (fun _ _ => True) (payoutThrew o e) w := by
  obtain ⟨message, code, named, published, prepared, failed⟩ := e
  have hclear (hdead : fate = .unsubmitted ∨ fate = .refunded)
      {k : Unit → PayoutProg ClaimAndPayoutTerminal} (hk : ∀ r, Quiet (k r)) :
      (payoutDiscipline o.escrowId).Safe (fun _ _ => True)
        (.call (.clearPayoutRecord o.escrowId) k) w := by
    refine safe_clearPayoutRecord ⟨hw.record, fun op hop => ?_⟩ fun _ _ => safe_of_quiet (hk ())
    exact hdead.elim (hw.alive op hop).2.1 (hw.alive op hop).2.2
  cases code with
  | none => trivial
  | some code =>
    cases code with
    | lnPayInflight =>
      refine safe_recordPayoutSubmitted ⟨hw.record, fun op hop => ?_⟩ fun _ _ => trivial
      obtain ⟨-, hnamed⟩ := Bool.and_eq_true_iff.mp hfits
      cases named with
      | none => exact Or.inl rfl
      | some named =>
        have hsame : named = operationId := by simpa using hnamed
        exact Or.inr (by rw [hsame]; exact (hw.alive op hop).1)
    | lnPayRefunded => exact hclear (Or.inr (of_decide_eq_true hfits)) fun _ => trivial
    | lnPaySubmitFailed => exact hclear (Or.inl (of_decide_eq_true hfits)) fun _ => trivial
    | _ => trivial

theorem safe_payLightning (hw : Payable o.escrowId w) :
    (payoutDiscipline o.escrowId).Safe (fun _ _ => True) (payLightning o) w := by
  refine safe_hook rfl hw fun _ _ r w _ _ _ hw => ?_
  cases r with
  | error => trivial
  | ok =>
    refine Discipline.safe_call knows_stable hw fun w₁ hw₁ hinv => ⟨trivial, ?_⟩
    intro c r w₂ _ hperform
    obtain ⟨f, now, message, hr, rfl⟩ := journalHook_eq_some hperform
    refine ⟨hinv.recordPayoutIntent hw₁.alive, ?_⟩
    cases r with
    | error => trivial
    | ok =>
      -- The record is an intent, or was advanced already but names no operation.
      have hready : Knows o.escrowId (fun r => r ≠ none ∧ namedOperation r = none) (fun _ => False)
          (w₁.withJournal
            (recordPayoutIntent f now o.escrowId (some o.expectedDeltaMsats) w₁.journal).2) := by
        refine ⟨?_, hw₁.alive⟩
        rcases recordPayoutIntent_ok (storageReply_eq_ok hr.symm) with
          ⟨⟨r, hadvanced, -⟩, hsame⟩ | ⟨r, hintent, hstatus, -⟩
        · rw [hsame]
          exact ⟨by rw [PayoutWorld.withJournal, hadvanced]; nofun, hw₁.record⟩
        · rw [PayoutWorld.withJournal, hintent, namedOperation, hstatus]
          exact ⟨nofun, rfl⟩
      refine Discipline.safe_call knows_stable hready fun w₃ hw₃ hinv₃ => ⟨?_, ?_⟩
      · exact alive_iff_not_dead.mp hw₃.alive
      · intro c r w₄ _ hperform
        obtain ⟨fate, operationId, -, hfits, rfl⟩ := payInvoiceHook_eq_some hperform
        have honly : ∀ op, Alive o.escrowId op (w₃.dispatch o.escrowId operationId fate) →
            op = some operationId := fun op hop => (alive_dispatch hop).resolve_left (hw₃.alive op)
        refine ⟨⟨fun op op' hop hop' => (honly op hop).trans (honly op' hop').symm, fun hnone => ?_,
          fun named hnamed => ?_, hinv₃.intent⟩, ?_⟩
        · exact absurd hnone hw₃.record.1
        · exact absurd (hw₃.record.2.symm.trans hnamed) nofun
        · cases r with
          | ok op =>
            refine safe_markPayoutSettled fun r _ => ?_
            cases r <;> trivial
          | error e =>
            change (payoutDiscipline o.escrowId).Safe _
                (payoutThrew o e >>= fun t => pure (some t)) _
            refine Discipline.safe_bind (Discipline.safe_mono (fun _ _ _ => trivial)
              (safe_payoutThrew (P := fun _ => True) ⟨trivial, fun op hop =>
                  ⟨honly op hop, ?_⟩⟩ hfits))
            constructor
            · rintro rfl
              exact hw₃.alive op (not_alive_dispatch (Or.inl rfl) hop)
            · rintro rfl
              exact hw₃.alive op (not_alive_dispatch (Or.inr rfl) hop)

/-! ### The flow -/

theorem safe_payoutPhase (hw : Payable o.escrowId w) :
    (payoutDiscipline o.escrowId).Safe (fun _ _ => True) (payoutPhase o) w := by
  unfold payoutPhase
  cases o.payoutKind with
  | onchain =>
    refine safe_hook rfl hw fun _ _ r _ _ _ _ _ => ?_
    cases r <;> trivial
  | ecash => exact safe_of_quiet quiet_payEcash
  | lightning => exact safe_payLightning hw

theorem safe_quiet_bind {α β : Type} {Q : β → PayoutWorld → Prop} {p : PayoutProg α}
    {f : α → PayoutProg β} (hp : Quiet p) (hw : Knows id P R w)
    (h : ∀ a w', Knows id P R w' → (payoutDiscipline id).Safe Q (f a) w') :
    (payoutDiscipline id).Safe Q (p >>= f) w :=
  Discipline.safe_bind (Discipline.safe_mono h (safe_quiet hp hw))

theorem safe_claimAndPay (hw : Payable o.escrowId w) :
    (payoutDiscipline o.escrowId).Safe (fun _ _ => True) (claimAndPay o) w := by
  refine safe_hook rfl hw fun _ _ r w _ _ _ hw => ?_
  cases r with
  | error => trivial
  | ok baseline =>
    change (payoutDiscipline o.escrowId).Safe _ (claimPhase o _ >>= _) _
    refine safe_quiet_bind quiet_claimPhase hw fun claimed w hw => ?_
    cases claimed with
    | error => trivial
    | ok claimed =>
      refine safe_quiet_bind quiet_settlePhase hw fun settledBy w hw => ?_
      cases settledBy with
      | error => trivial
      | ok settledBy =>
        refine safe_quiet_bind quiet_creditPhase hw fun _ w hw => ?_
        refine Discipline.safe_bind (Discipline.safe_mono (fun terminal w _ => ?_)
          (safe_payoutPhase hw))
        cases terminal with
        | some => trivial
        | none => exact safe_of_quiet quiet_finishPaid

theorem safe_runClaimAndPayout :
    (payoutDiscipline o.escrowId).Safe (fun _ _ => True) (runClaimAndPayout o) w := by
  refine safe_quiet_bind quiet_preflight (knows_nothing w) fun terminal w _ => ?_
  cases terminal with
  | some => trivial
  | none =>
    refine Discipline.safe_bind (Discipline.safe_mono (fun terminal w hpassed =>
        ?_) safe_payoutGuard)
    cases terminal with
    | some => trivial
    | none =>
      have hpay := safe_claimAndPay (o := o) (hpassed rfl)
      obtain ⟨_, _, _, _, payoutKind⟩ := o
      cases payoutKind with
      | ecash => exact safe_of_quiet quiet_exportDirectly
      | lightning => exact hpay
      | onchain => exact hpay

/-! ### Runs -/

/-- An escrow that was never paid and has no record. -/
def Unpaid (id : String) (w : PayoutWorld) : Prop :=
  recordFor id w.journal = none ∧ ∀ d ∈ w.dispatches, d.escrowId ≠ id

def sampleRefund : List (Event payoutPlatform Unit ClaimAndPayoutOpts) :=
  sampleStart () ++ sampleRedeem () ++ samplePayment () ++ [.drift (.resolves 0 .refunded)]

/-- A run that finds the refund, clears the record as well as its storage lets it, and comes to its
payment. -/
def sampleRetry (clear : Faults) : List (Event payoutPlatform Unit ClaimAndPayoutOpts) :=
  sampleStart () ++ [.step () (.watch .refunded), journals () clear] ++ sampleRedeem ()

def sampleCrash : List (Event payoutPlatform Unit ClaimAndPayoutOpts) :=
  [.step () (.pays .live "b" (.error {})), .stop ()]

theorem meets_of_isFaultless (cfg : Config payoutPlatform Unit ClaimAndPayoutTerminal)
    (e : Event payoutPlatform Unit ClaimAndPayoutOpts) (he : isFaultless e = true) :
    Meets FaultsSpared cfg e := by
  cases e with
  | step i c =>
    intro hook k _
    cases c with
    | storage f now message =>
      obtain rfl := of_decide_eq_true he
      cases hook with
      | getPayoutRecord => exact nofun
      | clearPayoutRecord => exact fun _ => ⟨rfl, nofun⟩
      | _ => trivial
    | _ => cases hook <;> trivial
  | _ => trivial

theorem unpaid_missing : Unpaid id { journal := .missing } :=
  ⟨rfl, fun _ hd => absurd hd List.not_mem_nil⟩

end ChamaEscrow
