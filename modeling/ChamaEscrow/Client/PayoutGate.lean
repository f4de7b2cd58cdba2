import ChamaEscrow.Client.PayoutPlatform

/-!
# The gate before a Lightning payment

Runs of `runClaimAndPayout` that share a journal interleave at their hooks.  A run reads its record
in the guard and pays much later, after the network has answered; between the two it is past the
gate (`Closed` fails).  The intent that it records just before it pays is no second gate:
`recordPayoutIntent` returns quietly when it finds the record submitted or settled.

* `not_advanced_at_payment`: a payment is never called under a submitted or a settled record, as
  long as no other run advances the record of a run that is past the gate, the guard's read does not
  fail over such a record, and the clearing of one does not fail.
* `paid_over_advanced`: two runs, and no fault at all.
-/

namespace ChamaEscrow

open Js Library

/-! ### Programs that are past the gate -/

/-- The payment of an escrow. -/
def Pays (id : String) : PayoutOp → Prop
  | .payInvoice id' _ => id' = id
  | _ => False

def Gates : PayoutOp → Prop
  | .getPayoutRecord _ | .clearPayoutRecord _ => True
  | _ => False

/-- The program does not pay the escrow before it has read or cleared its record. -/
def Closed {α : Type} (id : String) (p : PayoutProg α) : Prop :=
  p.Avoids (Pays id) Gates fun _ => True

/-- What a run does at each of its calls: all of them are about its own escrow, and it does not pay
after it has advanced the record, nor after it has read one. -/
def OrderlyAt {α : Type} (id : String) : (op : PayoutOp) → (op.Reply → PayoutProg α) → Prop
  | .markPayoutSettled id' _, k => id' = id ∧ ∀ r, Closed id (k r)
  | .recordPayoutSubmitted id' _ _, k => id' = id ∧ ∀ r, Closed id (k r)
  | .getPayoutRecord id', k => id' = id ∧ ∀ prior, Closed id (k (some prior))
  | .clearPayoutRecord id', _ => id' = id
  | .payInvoice id' _, _ => id' = id
  | _, _ => True

def Orderly {α : Type} (id : String) (p : PayoutProg α) : Prop := p.Everywhere (OrderlyAt id)

variable {id : String} {α β : Type}

variable {p : PayoutProg α}

theorem closed_of_quiet (hp : Quiet p) : Closed id p := by
  refine Prog.avoids_of_everywhere (hp.imp fun op _ hop hpays => ?_) fun _ => trivial
  cases op with
  | payInvoice => cases hop
  | _ => exact hpays

theorem closed_bind {f : α → PayoutProg β}
    (h : p.Avoids (Pays id) Gates fun a => Closed id (f a)) : Closed id (p >>= f) :=
  Prog.avoids_bind h

theorem orderly_quiet_bind {f : α → PayoutProg β} (hp : Quiet p)
    (hf : ∀ a, Orderly id (f a)) : Orderly id (p >>= f) := by
  refine Prog.everywhere_bind (fun op k hop => ?_) hp hf
  cases op with
  | markPayoutSettled | recordPayoutSubmitted | getPayoutRecord | clearPayoutRecord | payInvoice =>
    cases hop
  | _ => trivial

theorem orderly_of_quiet (hp : Quiet p) : Orderly id p := by
  refine hp.imp fun op k hop => ?_
  cases op with
  | markPayoutSettled | recordPayoutSubmitted | getPayoutRecord | clearPayoutRecord | payInvoice =>
    cases hop
  | _ => trivial

/-! ### The guard -/

variable {o : ClaimAndPayoutOpts}

/-- Before it passes the gate the program does not pay, and ends the run. -/
def Holds (id : String) (p : PayoutProg (Option ClaimAndPayoutTerminal)) : Prop :=
  p.Avoids (Pays id) Gates fun terminal => terminal.isSome = true

theorem holds_finishSettled {key : String} : Holds id (finishSettled key) :=
  ⟨fun h => h, Or.inr fun _ => ⟨fun h => h, Or.inr fun _ => rfl⟩⟩

theorem holds_reconcileByEscrow {createdAt : JsNumber} {trustNone : Bool} :
    Holds id (reconcileByEscrow o createdAt trustNone) := by
  refine ⟨fun h => h, Or.inr fun r => ?_⟩
  cases r with
  | error => rfl
  | ok answer =>
    obtain ⟨outcome, operationId⟩ := answer
    cases outcome with
    | settled => exact ⟨fun h => h, Or.inr fun _ => holds_finishSettled⟩
    | inflight => exact ⟨fun h => h, Or.inr fun _ => rfl⟩
    | refunded => exact ⟨fun h => h, Or.inl trivial⟩
    | none =>
      cases trustNone with
      | true => exact ⟨fun h => h, Or.inl trivial⟩
      | false => rfl
    | unknown => rfl

theorem holds_reattach {operationId : String} : Holds id (reattach o operationId) := by
  refine ⟨fun h => h, Or.inr fun r => ?_⟩
  cases r with
  | error => rfl
  | ok outcome =>
    cases outcome with
    | settled => exact ⟨fun h => h, Or.inr fun _ => holds_finishSettled⟩
    | refunded => exact ⟨fun h => h, Or.inl trivial⟩
    | unknown => rfl

section Guard

variable {f : Option ClaimAndPayoutTerminal → PayoutProg α}

theorem closed_of_holds {p : PayoutProg (Option ClaimAndPayoutTerminal)} (hp : Holds id p)
    (hends : ∀ t, Closed id (f (some t))) : Closed id (p >>= f) := by
  refine closed_bind (hp.imp fun terminal hsome => ?_)
  cases terminal with
  | none => cases hsome
  | some t => exact hends t

theorem orderly_finishSettled (hf : ∀ t, Orderly id (f t)) :
    Orderly id (finishSettled id >>= f) := orderly_quiet_bind quiet_finishSettled hf

theorem orderly_reconcileByEscrow {createdAt : JsNumber} {trustNone : Bool}
    (hends : ∀ t, Closed o.escrowId (f (some t))) (hf : ∀ t, Orderly o.escrowId (f t)) :
    Orderly o.escrowId (reconcileByEscrow o createdAt trustNone >>= f) := by
  refine ⟨trivial, fun r => ?_⟩
  cases r with
  | error => exact hf _
  | ok answer =>
    obtain ⟨outcome, operationId⟩ := answer
    cases outcome with
    | settled =>
      exact ⟨⟨rfl, fun _ => closed_of_holds holds_finishSettled hends⟩,
        fun _ => orderly_finishSettled hf⟩
    | inflight => exact ⟨⟨rfl, fun _ => hends _⟩, fun _ => hf _⟩
    | refunded => exact ⟨rfl, fun _ => hf _⟩
    | none =>
      cases trustNone with
      | true => exact ⟨rfl, fun _ => hf _⟩
      | false => exact hf _
    | unknown => exact hf _

theorem orderly_reattach {operationId : String} (hends : ∀ t, Closed o.escrowId (f (some t)))
    (hf : ∀ t, Orderly o.escrowId (f t)) :
    Orderly o.escrowId (reattach o operationId >>= f) := by
  refine ⟨trivial, fun r => ?_⟩
  cases r with
  | error => exact hf _
  | ok outcome =>
    cases outcome with
    | settled =>
      exact ⟨⟨rfl, fun _ => closed_of_holds holds_finishSettled hends⟩,
        fun _ => orderly_finishSettled hf⟩
    | refunded => exact ⟨rfl, fun _ => hf _⟩
    | unknown => exact hf _

theorem orderly_payoutGuard (hends : ∀ t, Closed o.escrowId (f (some t)))
    (hf : ∀ t, Orderly o.escrowId (f t)) : Orderly o.escrowId (payoutGuard o >>= f) := by
  refine ⟨trivial, fun r => ?_⟩
  cases r with
  | error => exact hf _
  | ok =>
    refine ⟨⟨rfl, fun prior => ?_⟩, fun prior => ?_⟩
    · obtain ⟨_, status, operationId, _, createdAt, _⟩ := prior
      cases status with
      | settled => exact closed_of_holds holds_finishSettled hends
      | intent => exact closed_of_holds holds_reconcileByEscrow hends
      | submitted =>
        change Closed o.escrowId (submittedGuard o createdAt operationId >>= f)
        unfold submittedGuard
        cases operationId.filter (· ≠ "") with
        | none => exact closed_of_holds holds_reconcileByEscrow hends
        | some => exact closed_of_holds holds_reattach hends
    · cases prior with
      | none => exact hf _
      | some prior =>
        obtain ⟨_, status, operationId, _, createdAt, _⟩ := prior
        cases status with
        | settled => exact orderly_finishSettled hf
        | intent => exact orderly_reconcileByEscrow hends hf
        | submitted =>
          change Orderly o.escrowId (submittedGuard o createdAt operationId >>= f)
          unfold submittedGuard
          cases operationId.filter (· ≠ "") with
          | none => exact orderly_reconcileByEscrow hends hf
          | some => exact orderly_reattach hends hf

end Guard

/-! ### The flow -/

theorem orderly_payoutThrew {e : Thrown} {f : ClaimAndPayoutTerminal → PayoutProg α}
    (hclosed : ∀ t, Closed o.escrowId (f t)) (hf : ∀ t, Orderly o.escrowId (f t)) :
    Orderly o.escrowId (payoutThrew o e >>= f) := by
  obtain ⟨_, code, _, _, _, _⟩ := e
  cases code with
  | none => exact hf _
  | some code =>
    cases code with
    | lnPayInflight => exact ⟨⟨rfl, fun _ => hclosed _⟩, fun _ => hf _⟩
    | lnPayRefunded => exact ⟨rfl, fun _ => hf _⟩
    | lnPaySubmitFailed => exact ⟨rfl, fun _ => hf _⟩
    | _ => exact hf _

theorem orderly_payLightning {f : Option ClaimAndPayoutTerminal → PayoutProg α}
    (hclosed : ∀ t, Closed o.escrowId (f t)) (hf : ∀ t, Orderly o.escrowId (f t)) :
    Orderly o.escrowId (payLightning o >>= f) := by
  refine ⟨trivial, fun r => ?_⟩
  cases r with
  | error => exact hf _
  | ok =>
    refine ⟨trivial, fun r => ?_⟩
    cases r with
    | error => exact hf _
    | ok =>
      refine ⟨rfl, fun r => ?_⟩
      cases r with
      | error e =>
        change Orderly o.escrowId ((payoutThrew o e >>= fun t => pure (some t)) >>= f)
        rw [Prog.bind_assoc]
        exact orderly_payoutThrew (fun _ => hclosed _) fun _ => hf _
      | ok operationId =>
        refine ⟨⟨rfl, fun r => ?_⟩, fun r => ?_⟩
        · cases r <;> exact hclosed _
        · cases r <;> exact hf _

theorem orderly_payoutPhase {f : Option ClaimAndPayoutTerminal → PayoutProg α}
    (hclosed : ∀ t, Closed o.escrowId (f t)) (hf : ∀ t, Orderly o.escrowId (f t)) :
    Orderly o.escrowId (payoutPhase o >>= f) := by
  unfold payoutPhase
  cases o.payoutKind with
  | onchain =>
    refine ⟨trivial, fun r => ?_⟩
    cases r <;> exact hf _
  | ecash => exact orderly_quiet_bind quiet_payEcash hf
  | lightning => exact orderly_payLightning hclosed hf

theorem orderly_claimAndPay : Orderly o.escrowId (claimAndPay o) := by
  refine ⟨trivial, fun r => ?_⟩
  cases r with
  | error => trivial
  | ok baseline =>
    change Orderly o.escrowId (claimPhase o _ >>= _)
    refine orderly_quiet_bind quiet_claimPhase fun claimed => ?_
    cases claimed with
    | error => trivial
    | ok claimed =>
      refine orderly_quiet_bind quiet_settlePhase fun settledBy => ?_
      cases settledBy with
      | error => trivial
      | ok settledBy =>
        refine orderly_quiet_bind quiet_creditPhase fun _ => orderly_payoutPhase ?_ ?_
        · intro terminal
          cases terminal with
          | none => exact closed_of_quiet quiet_finishPaid
          | some => trivial
        · intro terminal
          cases terminal with
          | none => exact orderly_of_quiet quiet_finishPaid
          | some => trivial

theorem orderly_runClaimAndPayout : Orderly o.escrowId (runClaimAndPayout o) := by
  refine orderly_quiet_bind quiet_preflight fun terminal => ?_
  cases terminal with
  | some => trivial
  | none =>
    refine orderly_payoutGuard (fun _ => trivial) fun terminal => ?_
    cases terminal with
    | some => trivial
    | none =>
      have hpay := orderly_claimAndPay (o := o)
      obtain ⟨_, _, _, _, payoutKind⟩ := o
      cases payoutKind with
      | ecash => exact orderly_of_quiet quiet_exportDirectly
      | lightning => exact hpay
      | onchain => exact hpay

theorem closed_runClaimAndPayout : Closed id (runClaimAndPayout o) := by
  refine closed_bind (Prog.avoids_of_everywhere (quiet_preflight.imp fun op _ hop hpays => ?_) ?_)
  · cases op with
    | payInvoice => cases hop
    | _ => exact hpays
  · intro terminal
    cases terminal with
    | some => trivial
    | none =>
      refine ⟨fun h => h, Or.inr fun r => ?_⟩
      cases r with
      | error => trivial
      | ok => exact ⟨fun h => h, Or.inl trivial⟩

/-! ### Interleaved runs -/

section Runs

variable {ι : Type} [DecidableEq ι]

/-- The hooks that make the record of an escrow a submitted or a settled one. -/
def Advances (id : String) : PayoutOp → Prop
  | .markPayoutSettled id' _ | .recordPayoutSubmitted id' _ _ => id' = id
  | _ => False

/-- The faults that count: neither the guard's read nor a clear fails over an advanced record. -/
def GateSpared : PayoutOp → PayoutWorld → PayoutChoice → Prop
  | .getPayoutRecord id, w, .storage f _ _ => f.read = true → ¬ Advanced id w.journal
  | .clearPayoutRecord id, w, .storage f _ _ => Advanced id w.journal → f.Clears
  | _, _, _ => True

/-- The events that count: the faults spare the gate, and a run advances a record only while no
other run for its escrow is past the gate. -/
def Undisturbed (cfg : Config payoutPlatform ι ClaimAndPayoutTerminal) :
    Event payoutPlatform ι ClaimAndPayoutOpts → Prop
  | .step i c => ∀ (op : PayoutOp) k, cfg.slots i = some (.call op k) →
      GateSpared op cfg.world c ∧
        ∀ id, Advances id op → ∀ j p, j ≠ i → cfg.slots j = some p → Closed id p
  | _ => True

/-- What holds of a pending run: past the gate, its record is not advanced. -/
def Gated (p : PayoutProg ClaimAndPayoutTerminal) (w : PayoutWorld) : Prop :=
  ∃ id, Orderly id p ∧ (Advanced id w.journal → Closed id p)

variable {w w' : PayoutWorld} {op : PayoutOp} {c : PayoutChoice} {r : op.Reply}

theorem not_advanced_of_none {s : Stored Journal} (h : recordFor id s = none) :
    ¬ Advanced id s := by
  rintro ⟨r, hr, -⟩
  rw [h] at hr
  cases hr

theorem advanced_of_other {f : Faults} {s : Stored Journal} {change : Journal → Option Journal}
    (hchange : ∀ journal next, change journal = some next → next.get id = journal.get id)
    (h : Advanced id (updateJournal f s change).2) : Advanced id s := by
  obtain ⟨r, hr, hstatus⟩ := h
  rcases updateJournal_other hchange with hsame | hnone
  · exact ⟨r, hsame ▸ hr, hstatus⟩
  · rw [hnone] at hr
    cases hr

theorem advanced_before (h : performHook op w c = some (r, w'))
    (hadvanced : Advanced id w'.journal) :
    Advanced id w.journal ∨ Advances id op := by
  cases op with
  | markPayoutSettled id' operationId =>
    obtain ⟨f, now, message, -, rfl⟩ := journalHook_eq_some h
    by_cases hid : id' = id
    · exact Or.inr hid
    · refine Or.inl (advanced_of_other (fun journal next hnext => ?_) hadvanced)
      exact (withSettled_eq_some hnext).2 id (Ne.symm hid)
  | recordPayoutSubmitted id' operationId amountMsats =>
    obtain ⟨f, now, message, -, rfl⟩ := journalHook_eq_some h
    by_cases hid : id' = id
    · exact Or.inr hid
    · refine Or.inl (advanced_of_other (fun journal next hnext => ?_) hadvanced)
      exact (withSubmitted_eq_some hnext).2.1 id (Ne.symm hid)
  | recordPayoutIntent id' amountMsats =>
    obtain ⟨f, now, message, -, rfl⟩ := journalHook_eq_some h
    left
    by_cases hid : id' = id
    · subst hid
      rcases recordPayoutIntent_cases f now id' (some amountMsats) w.journal with
        hsame | ⟨r, hr, hintent, -⟩
      · exact hsame ▸ hadvanced
      · obtain ⟨r', hr', hstatus⟩ := hadvanced
        obtain rfl := Option.some.inj (hr.symm.trans hr')
        exact absurd hintent hstatus
    · refine advanced_of_other (fun journal next hnext => ?_) hadvanced
      exact (withIntent_eq_some hnext).2 id (Ne.symm hid)
  | clearPayoutRecord id' =>
    obtain ⟨f, now, message, -, rfl⟩ := clearHook_eq_some h
    left
    by_cases hid : id' = id
    · subst hid
      rcases clearPayoutRecord_cases f id' w.journal with hsame | hnone
      · exact hsame ▸ hadvanced
      · exact absurd hadvanced (not_advanced_of_none hnone)
    · refine advanced_of_other (fun journal next hnext => ?_) hadvanced
      exact (withoutRecord_eq_some hnext).2 id (Ne.symm hid)
  | payInvoice id' bolt11 =>
    obtain ⟨fate, operationId, -, -, rfl⟩ := payInvoiceHook_eq_some h
    exact Or.inl hadvanced
  | _ => exact Or.inl ((quiet_perform rfl h).1 ▸ hadvanced)

theorem Gated.own {k : op.Reply → PayoutProg ClaimAndPayoutTerminal} (hgated : Gated (.call op k) w)
    (hspared : GateSpared op w c) (h : performHook op w c = some (r, w')) : Gated (k r) w' := by
  obtain ⟨id, horderly, hclosed⟩ := hgated
  refine ⟨id, horderly.2 r, fun hadvanced => ?_⟩
  rcases advanced_before h hadvanced with hbefore | hadvances
  · rcases (hclosed hbefore).2 with hgates | hrest
    · cases op with
      | getPayoutRecord id' =>
        obtain ⟨rfl, hafter⟩ := horderly.1
        obtain ⟨hanswer, rfl⟩ := answered h
        cases c with
        | storage f now message =>
          have hread : f.read = false := Bool.eq_false_iff.mpr fun hread => hspared hread hbefore
          obtain ⟨prior, hprior, -⟩ := hbefore
          have hr : r = some prior := by
            rw [← Option.some.inj hanswer, getPayoutRecord_eq, hread, hprior]
            rfl
          exact hr ▸ hafter prior
        | _ => cases hanswer
      | clearPayoutRecord id' =>
        obtain rfl : id' = id := horderly.1
        obtain ⟨f, now, message, rfl, rfl⟩ := clearHook_eq_some h
        exact absurd hadvanced (not_advanced_of_none (recordFor_clearPayoutRecord (hspared hbefore)))
      | _ => cases hgates
    · exact hrest r
  · cases op with
    | markPayoutSettled => exact horderly.1.2 r
    | recordPayoutSubmitted => exact horderly.1.2 r
    | _ => cases hadvances

/-- A step of another run keeps a run gated when it does not advance the record of one that is past
the gate. -/
theorem Gated.other {p : PayoutProg ClaimAndPayoutTerminal} (hgated : Gated p w)
    (hothers : ∀ id, Advances id op → Closed id p) (h : performHook op w c = some (r, w')) :
    Gated p w' := by
  obtain ⟨id, horderly, hclosed⟩ := hgated
  refine ⟨id, horderly, fun hadvanced => ?_⟩
  rcases advanced_before h hadvanced with hbefore | hadvances
  · exact hclosed hbefore
  · exact hothers id hadvances

/-- A payment is never called under a submitted or a settled record of its escrow, in every
interleaving of runs over any world in which the faults spare the gate and no run advances the
record of one that is past it. -/
theorem not_advanced_at_payment {cfg : Config payoutPlatform ι ClaimAndPayoutTerminal}
    (h : Run (Config.exec runClaimAndPayout) (Idle fun _ => True) Undisturbed cfg) {i : ι}
    {id bolt11 : String} {k : Except Thrown (Option String) → PayoutProg ClaimAndPayoutTerminal}
    (hpays : cfg.slots i = some (.call (.payInvoice id bolt11) k)) :
    ¬ Advanced id cfg.world.journal := by
  have hgated : Gated (.call (.payInvoice id bolt11) k) cfg.world := by
    refine (slots_invariant (J := fun _ => True) (K := Gated) ?_ ?_ ?_ ?_ h).2 i _ hpays
    · rintro cfg ⟨w, -, rfl⟩
      exact ⟨trivial, fun i p hp => by cases hp⟩
    · exact fun w o _ => ⟨o.escrowId, orderly_runClaimAndPayout, fun _ => closed_runClaimAndPayout⟩
    · intro cfg i c op k r w hundisturbed hp _ hgated hperform
      obtain ⟨hspared, hothers⟩ := hundisturbed op k hp
      refine ⟨trivial, hgated.own hspared hperform, fun j p hj hp hgated => ?_⟩
      exact hgated.other (fun id hadvances => hothers id hadvances j p hj hp) hperform
    · intro cfg c w' _ _ hdrift
      refine ⟨trivial, fun i p _ ⟨id, horderly, hclosed⟩ => ⟨id, horderly, ?_⟩⟩
      cases c with
      | resolves index fate => exact resolve_journal hdrift ▸ hclosed
      | _ => cases hdrift
  obtain ⟨id', horderly, hclosed⟩ := hgated
  obtain rfl : id = id' := horderly.1
  exact fun hadvanced => (hclosed hadvanced).1 rfl

end Runs

/-! ### Sample runs -/

def advancesNothing (cfg : Config payoutPlatform Bool ClaimAndPayoutTerminal)
    (e : Event payoutPlatform Bool ClaimAndPayoutOpts) : Bool :=
  isFaultless e &&
    match e with
    | .step i _ =>
      match cfg.slots i with
      | some (.call (.markPayoutSettled _ _) _) | some
          (.call (.recordPayoutSubmitted _ _ _) _) => false
      | _ => true
    | _ => true

theorem undisturbed_of_advancesNothing (cfg : Config payoutPlatform Bool ClaimAndPayoutTerminal)
    (e : Event payoutPlatform Bool ClaimAndPayoutOpts) (he : advancesNothing cfg e = true) :
    Undisturbed cfg e := by
  cases e with
  | step i c =>
    intro op k hp
    obtain ⟨hfaultless, hnothing⟩ := Bool.and_eq_true_iff.mp he
    simp only [hp] at hnothing
    refine ⟨?_, fun id hadvances => ?_⟩
    · cases c with
      | storage f now message =>
        obtain rfl := of_decide_eq_true hfaultless
        cases op with
        | getPayoutRecord => exact nofun
        | clearPayoutRecord => exact fun _ => ⟨rfl, nofun⟩
        | _ => trivial
      | _ => cases op <;> trivial
    · cases op with
      | markPayoutSettled => cases hnothing
      | recordPayoutSubmitted => cases hnothing
      | _ => cases hadvances
  | _ => trivial

/-- Two runs that have both come to their payment, under an intent. -/
theorem not_advanced_at_payment_race : ∃ cfg : Config payoutPlatform Bool ClaimAndPayoutTerminal,
    (∀ i, ∃ k, cfg.slots i = some (.call (.payInvoice "e" "lnbc") k)) ∧
      ¬ Advanced "e" cfg.world.journal := by
  have hrun : ∃ cfg, Run (Config.exec runClaimAndPayout) (Idle fun _ => True) Undisturbed cfg ∧
      (paying (cfg.slots false) = some ("e", "lnbc") &&
          paying (cfg.slots true) = some ("e", "lnbc"))
        = true :=
    Run.exists_of_checked (s := .idle { journal := .missing }) ⟨_, trivial, rfl⟩ advancesNothing
      undisturbed_of_advancesNothing
      (sampleStart false ++ sampleStart true ++ sampleRedeem false ++ sampleRedeem true)
      (by decide +kernel)
  obtain ⟨cfg, hrun, htest⟩ := hrun
  rw [Bool.and_eq_true, decide_eq_true_eq, decide_eq_true_eq] at htest
  have hpays (i : Bool) : ∃ k, cfg.slots i = some (.call (.payInvoice "e" "lnbc") k) := by
    cases i with
    | false => exact paying_eq_some htest.1
    | true => exact paying_eq_some htest.2
  exact ⟨cfg, hpays, not_advanced_at_payment hrun (hpays false).choose_spec⟩

/-- The record is submitted by one run while the other waits for its claim; the intent of that one
gives way to it, and the run pays. -/
theorem paid_over_advanced : ∃ cfg : Config payoutPlatform Bool ClaimAndPayoutTerminal,
    Run (Config.exec runClaimAndPayout) (Idle fun _ => True) (fun _ _ => True) cfg ∧
      (∃ k, cfg.slots false = some (.call (.payInvoice "e" "lnbc") k)) ∧
      Advanced "e" cfg.world.journal := by
  have hrun : ∃ cfg, Run (Config.exec runClaimAndPayout) (Idle fun _ => True)
      (fun _ _ => True) cfg ∧
      (paying (cfg.slots false) = some ("e", "lnbc") &&
        (recordFor "e" cfg.world.journal).any fun r => r.status ≠ .intent) = true :=
    Run.exists_of_checked (s := .idle { journal := .missing }) ⟨_, trivial, rfl⟩ (fun _ _ => true)
      (fun _ _ _ => trivial)
      (sampleStart false ++ sampleStart true ++ sampleRedeem true ++ samplePayment true ++
        sampleRedeem false)
      (by decide +kernel)
  obtain ⟨cfg, hrun, htest⟩ := hrun
  rw [Bool.and_eq_true, decide_eq_true_eq, Option.any_eq_true] at htest
  obtain ⟨r, hr, hstatus⟩ := htest.2
  exact ⟨cfg, hrun, paying_eq_some htest.1, r, hr, of_decide_eq_true hstatus⟩

end ChamaEscrow
