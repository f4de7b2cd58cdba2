import ChamaEscrow.Client.PayoutPlatform

/-!
# An on-chain payout is paid at most once

The runs of `runClaimAndPayout` for one escrow follow one another, each stopped anywhere.  A payment
on chain is not journalled, so a run that comes after it has nothing but the balance to tell it that
there is nothing left to pay: it pays again as soon as the claim looks settled.

* `pegged_out_once`: there is one successful `payOnchain` at most when, once there was one, no
  reading of the balance settles the claim again.
* `pegged_out_twice`: a second run finds the claim published and the balance covering.
-/

namespace ChamaEscrow

open Js Library

/-! ### What is known of the payments on chain -/

/-- Whether a hook pays on chain. -/
def PayoutOp.pegsOut : PayoutOp → Bool
  | payOnchain _ _ => true
  | _ => false

variable {id : String} {op : PayoutOp} {w w' : PayoutWorld} {c : PayoutChoice} {r : op.Reply}

theorem pegOuts_perform (hop : op.pegsOut = false) (h : performHook op w c = some (r, w')) :
    w'.pegOuts = w.pegOuts := by
  cases op with
  | markPayoutSettled | recordPayoutSubmitted | recordPayoutIntent =>
    obtain ⟨f, now, message, -, rfl⟩ := journalHook_eq_some h
    rfl
  | clearPayoutRecord =>
    obtain ⟨f, now, message, -, rfl⟩ := clearHook_eq_some h
    rfl
  | payInvoice =>
    obtain ⟨fate, operationId, -, -, rfl⟩ := payInvoiceHook_eq_some h
    rfl
  | payOnchain => cases hop
  | _ =>
    obtain ⟨-, rfl⟩ := answered h
    rfl

/-- The readings that count: none settles the claim of an escrow that was paid on chain. -/
def Drained (id : String) : PayoutOp → PayoutWorld → PayoutChoice → Prop
  | .getBalance use, w, .balance msats => id ∈ w.pegOuts → use.settles msats = false
  | .waitForBalanceGrowth baseline expectedDeltaMsats timeoutMs pollIntervalMs, w,
      .polls readings =>
    id ∈ w.pegOuts → waitForBalanceGrowth baseline expectedDeltaMsats timeoutMs pollIntervalMs readings
      ≠ some .grew
  | _, _, _ => True

/-- What the runs for one escrow are held to. -/
def pegOutDiscipline (id : String) : Discipline payoutPlatform where
  inv w := w.pegOuts.count id ≤ 1
  demand
    | .payOnchain id' _, w => id' = id → id ∉ w.pegOuts
    | _, _ => True
  allow := Drained id
  rely w w' := w'.pegOuts = w.pegOuts
  rely_refl _ := rfl
  rely_trans h h' := h'.trans h

def Offchain {α : Type} (p : PayoutProg α) : Prop :=
  p.Everywhere fun (op : PayoutOp) _ => op.pegsOut = false

section Rules

variable {α β : Type} {B : List String → Prop} {Q : α → PayoutWorld → Prop}

theorem pegOuts_stable : (pegOutDiscipline id).Stable fun w => B w.pegOuts := by
  intro w w₁ h hrely _
  exact hrely ▸ h

theorem safe_offchain_call {k : op.Reply → PayoutProg α} (hop : op.pegsOut = false)
    (hw : B w.pegOuts)
    (h : ∀ w₁ c r w₂, Drained id op w₁ c → performHook op w₁ c = some (r, w₂) → B w₁.pegOuts →
      w₂.pegOuts = w₁.pegOuts → (pegOutDiscipline id).Safe Q (k r) w₂) :
    (pegOutDiscipline id).Safe Q (.call op k) w := by
  refine Discipline.safe_call pegOuts_stable hw fun w₁ hw₁ hinv => ⟨?_, ?_⟩
  · cases op with
    | payOnchain => cases hop
    | _ => trivial
  · intro c r w₂ hallow hperform
    have hsame := pegOuts_perform hop hperform
    refine ⟨?_, h w₁ c r w₂ hallow hperform hw₁ hsame⟩
    change w₂.pegOuts.count id ≤ 1
    rw [hsame]
    exact hinv

variable {p : PayoutProg α}

theorem safe_offchain (hp : Offchain p) (hw : B w.pegOuts) :
    (pegOutDiscipline id).Safe (fun _ w => B w.pegOuts) p w := by
  induction p generalizing w with
  | ret a => exact hw
  | call op k ih =>
    obtain ⟨hop, hrest⟩ := Prog.everywhere_call.mp hp
    refine safe_offchain_call hop hw fun w₁ c r w₂ _ _ hw₁ hsame => ih r (hrest r) ?_
    rw [hsame]
    exact hw₁

theorem safe_of_offchain (hp : Offchain p) : (pegOutDiscipline id).Safe (fun _ _ => True) p w :=
  safe_offchain (B := fun _ => True) hp trivial

theorem safe_offchain_bind {Q : β → PayoutWorld → Prop}
    {f : α → PayoutProg β} (hp : Offchain p) (hw : B w.pegOuts)
    (h : ∀ a w', B w'.pegOuts → (pegOutDiscipline id).Safe Q (f a) w') :
    (pegOutDiscipline id).Safe Q (p >>= f) w :=
  Discipline.safe_bind (Discipline.safe_mono h (safe_offchain hp hw))

end Rules

/-! ### The phases that pay nothing on chain -/

theorem offchain_of_quiet {α : Type} {p : PayoutProg α} (hp : Quiet p) : Offchain p := by
  refine hp.imp fun op _ hop => ?_
  cases op with
  | payOnchain => cases hop
  | _ => rfl

theorem offchain_of_byLightning {α : Type} {p : PayoutProg α} (hp : ByLightning id p) :
    Offchain p := by
  refine hp.imp fun op _ hop => ?_
  cases op with
  | payOnchain => cases hop
  | _ => rfl

variable {o : ClaimAndPayoutOpts}

/-! ### The settlement and the payment -/

theorem safe_growthPhase {baseline : JsNumber} {resumed : Bool} {claimed : Claimed}
    {B : List String → Prop} (hw : B w.pegOuts) :
    (pegOutDiscipline id).Safe (fun grew w => B w.pegOuts ∧ (grew = true → id ∉ w.pegOuts))
      (growthPhase o baseline resumed claimed) w := by
  cases claimed with
  | failedHard => exact ⟨hw, nofun⟩
  | settling =>
    cases resumed with
    | true => exact ⟨hw, nofun⟩
    | false =>
      refine safe_offchain_call rfl hw fun w₁ c growth w₂ hallow hperform hw₁ hsame => ?_
      refine ⟨hsame ▸ hw₁, fun hgrew hpaid => ?_⟩
      obtain rfl : growth = .grew := of_decide_eq_true hgrew
      obtain ⟨hanswer, rfl⟩ := answered hperform
      cases c with
      | polls readings => exact hallow hpaid hanswer
      | _ => cases hanswer

theorem not_paid_of_settles {use : BalanceUse} {msats : JsNumber}
    (hallow : Drained id (.getBalance use) w c)
    (h : performHook (.getBalance use) w c = some (.ok msats, w'))
    (hsettles : use.settles msats = true) :
    id ∉ w'.pegOuts := by
  intro hpaid
  obtain ⟨hanswer, rfl⟩ := answered h
  cases c with
  | balance reading =>
    obtain rfl := Except.ok.inj (Option.some.inj hanswer)
    exact absurd hsettles (Bool.not_eq_true _ ▸ hallow hpaid)
  | throws => cases hanswer
  | _ => cases hanswer

theorem safe_settlePhase {baseline : JsNumber} {resumed : Bool} {claimed : Claimed}
    (hw : resumed = true → id ∉ w.pegOuts) :
    (pegOutDiscipline id).Safe (fun settledBy w => ∀ s, settledBy = .ok s → id ∉ w.pegOuts)
      (settlePhase o baseline resumed claimed) w := by
  refine Discipline.safe_bind (Discipline.safe_mono (fun grew w hgrown => ?_)
    (safe_growthPhase (B := fun pegOuts => resumed = true → id ∉ pegOuts) hw))
  cases resumed with
  | true => exact fun _ _ => hgrown.1 rfl
  | false =>
    cases grew with
    | true => exact fun _ _ => hgrown.2 rfl
    | false =>
      refine safe_offchain_call (B := fun _ => True) rfl trivial
        fun w₁ c reading w₂ hallow hperform _ _ => ?_
      cases reading with
      | error => cases claimed <;> exact nofun
      | ok msats =>
        change (pegOutDiscipline id).Safe _
          (if balanceCoversPayout msats o.expectedDeltaMsats o.payoutKind then _ else _) _
        split_ifs with hcovers
        · exact fun _ _ => not_paid_of_settles hallow hperform hcovers
        · cases claimed <;> exact nofun

theorem safe_payoutPhase_pegOut (hid : o.escrowId = id) (hw : id ∉ w.pegOuts) :
    (pegOutDiscipline id).Safe (fun _ _ => True) (payoutPhase o) w := by
  unfold payoutPhase
  cases o.payoutKind with
  | ecash => exact safe_of_offchain (offchain_of_quiet quiet_payEcash)
  | lightning => exact safe_of_offchain (offchain_of_byLightning byLightning_payLightning)
  | onchain =>
    refine Discipline.safe_call (pegOuts_stable (B := fun pegOuts => id ∉ pegOuts)) hw
      fun w₁ hw₁ hinv => ⟨fun _ => hw₁, ?_⟩
    intro c r w₂ _ hperform
    refine ⟨?_, by cases r <;> trivial⟩
    rcases payOnchainHook_eq_some hperform with ⟨-, rfl⟩ | rfl
    · change (w₁.pegOuts ++ [o.escrowId]).count id ≤ 1
      rw [hid, List.count_append, List.count_eq_zero_of_not_mem hw₁, List.count_singleton_self]
    · exact hinv

theorem safe_claimAndPay_pegOut (hid : o.escrowId = id) :
    (pegOutDiscipline id).Safe (fun _ _ => True) (claimAndPay o) w := by
  refine safe_offchain_call (B := fun _ => True) rfl trivial
    fun w₁ c reading w₂ hallow hperform _ _ => ?_
  cases reading with
  | error => trivial
  | ok baseline =>
    change (pegOutDiscipline id).Safe _ (claimPhase o _ >>= _) _
    refine safe_offchain_bind (B := fun pegOuts => _ = true → id ∉ pegOuts)
      (offchain_of_quiet quiet_claimPhase) (not_paid_of_settles hallow hperform)
      fun claimed w hw => ?_
    cases claimed with
    | error => trivial
    | ok claimed =>
      refine Discipline.safe_bind (Discipline.safe_mono (fun settledBy w hsettled => ?_)
        (safe_settlePhase hw))
      cases settledBy with
      | error => trivial
      | ok settledBy =>
        refine safe_offchain_bind (B := fun pegOuts => id ∉ pegOuts)
          (offchain_of_quiet quiet_creditPhase) (hsettled settledBy rfl) fun _ w hw => ?_
        refine Discipline.safe_bind (Discipline.safe_mono (fun terminal w _ => ?_)
          (safe_payoutPhase_pegOut hid hw))
        cases terminal with
        | some => trivial
        | none => exact safe_of_offchain (offchain_of_quiet quiet_finishPaid)

theorem safe_runClaimAndPayout_pegOut (hid : o.escrowId = id) :
    (pegOutDiscipline id).Safe (fun _ _ => True) (runClaimAndPayout o) w := by
  refine safe_offchain_bind (B := fun _ => True) (offchain_of_quiet quiet_preflight) trivial
    fun terminal w _ => ?_
  cases terminal with
  | some => trivial
  | none =>
    refine safe_offchain_bind (B := fun _ => True)
      (offchain_of_byLightning byLightning_payoutGuard) trivial
      fun terminal w _ => ?_
    cases terminal with
    | some => trivial
    | none =>
      have hpay := safe_claimAndPay_pegOut (w := w) hid
      obtain ⟨_, _, _, _, payoutKind⟩ := o
      cases payoutKind with
      | ecash => exact safe_of_offchain (offchain_of_quiet quiet_exportDirectly)
      | lightning => exact hpay
      | onchain => exact hpay

/-! ### Runs -/

/-- One payment on chain succeeds at most, in every sequence of runs, each stopped anywhere, in
which no reading of the balance settles the claim once there was one. -/
theorem pegged_out_once {id : String} {cfg : Config payoutPlatform Unit ClaimAndPayoutTerminal}
    (h : Run (Config.exec (payoutRun id)) (Idle fun w => id ∉ w.pegOuts) (Meets (Drained id)) cfg) :
    cfg.world.pegOuts.count id ≤ 1 := by
  refine (Discipline.run_safe (D := pegOutDiscipline id) ?_ ?_ (Or.inl inferInstance) ?_ h).1
  · intro w hw
    exact (List.count_eq_zero_of_not_mem hw).trans_le zero_le_one
  · exact fun w o _ => safe_runClaimAndPayout_pegOut (o := { o with escrowId := id }) rfl
  · intro w c w' hinv hdrift
    have hsame : w'.pegOuts = w.pegOuts := by
      cases c with
      | resolves index fate => exact resolve_pegOuts hdrift
      | _ => cases hdrift
    refine ⟨?_, hsame⟩
    change w'.pegOuts.count id ≤ 1
    rw [hsame]
    exact hinv

/-! ### Sample runs -/

/-- A run on chain that pays, and whose COMPLETE is not published; the balance is `rest`
afterwards. -/
def samplePegOut (rest : JsNumber) : List (Event payoutPlatform Unit ClaimAndPayoutOpts) :=
  [.start () { sampleOpts with payoutKind := .onchain }, journals () .none, journals () .none,
    .step () (.balance 0), .step () .returns, .step () (.polls [⟨some 1000, 0⟩]),
    .step () (.balance 1000), .step () .returns, .step () .returns, .step () .returns,
    .step () (.throws {}), .step () .returns, .step () (.balance rest)]

def sampleSecond (balance : JsNumber) : List (Event payoutPlatform Unit ClaimAndPayoutOpts) :=
  [.start () { sampleOpts with payoutKind := .onchain, claimAlreadyPublished := true },
    journals () .none, journals () .none, .step () (.balance balance)]

def drains (id : String) (cfg : Config payoutPlatform Unit ClaimAndPayoutTerminal) :
    Event payoutPlatform Unit ClaimAndPayoutOpts → Bool
  | .step _ (.balance msats) =>
    match cfg.slots () with
    | some (.call (.getBalance use) _) => id ∉ cfg.world.pegOuts || !use.settles msats
    | _ => true
  | .step _ (.polls _) => id ∉ cfg.world.pegOuts
  | _ => true

theorem meets_of_drains (cfg : Config payoutPlatform Unit ClaimAndPayoutTerminal)
    (e : Event payoutPlatform Unit ClaimAndPayoutOpts) (he : drains id cfg e = true) :
    Meets (Drained id) cfg e := by
  cases e with
  | step i c =>
    intro hook k hp
    cases hook with
    | getBalance use =>
      cases c with
      | balance msats =>
        simp only [drains, hp, Bool.or_eq_true, decide_eq_true_eq, Bool.not_eq_true'] at he
        exact fun hpaid => he.resolve_left (not_not_intro hpaid)
      | _ => trivial
    | waitForBalanceGrowth =>
      cases c with
      | polls readings => exact fun hpaid => absurd hpaid (of_decide_eq_true he)
      | _ => trivial
    | _ => trivial
  | _ => trivial

/-- The wallet was drained by the payment, and the second run does not pay. -/
theorem pegged_out_once_drained :
    ∃ cfg : Config payoutPlatform Unit ClaimAndPayoutTerminal,
      cfg.world.pegOuts = ["e"] ∧ cfg.world.pegOuts.count "e" ≤ 1 := by
  have hrun : ∃ cfg, Run (Config.exec (payoutRun "e")) (Idle fun w => "e" ∉ w.pegOuts)
      (Meets (Drained "e")) cfg ∧ decide (cfg.world.pegOuts = ["e"]) = true :=
    Run.exists_of_checked (s := .idle { journal := .missing }) ⟨_, List.not_mem_nil, rfl⟩
      (drains "e") meets_of_drains (samplePegOut 0 ++ sampleSecond 0) (by decide +kernel)
  obtain ⟨cfg, hrun, htest⟩ := hrun
  exact ⟨cfg, of_decide_eq_true htest, pegged_out_once hrun⟩

/-- The wallet holds more than the payout, COMPLETE was not published, and the second run pays. -/
theorem pegged_out_twice : ∃ cfg : Config payoutPlatform Unit ClaimAndPayoutTerminal,
    Run (Config.exec (payoutRun "e")) (Idle fun w => "e" ∉ w.pegOuts) (fun _ _ => True) cfg ∧
      cfg.world.pegOuts = ["e", "e"] := by
  have hrun : ∃ cfg, Run (Config.exec (payoutRun "e")) (Idle fun w => "e" ∉ w.pegOuts)
      (fun _ _ => True) cfg ∧ decide (cfg.world.pegOuts = ["e", "e"]) = true :=
    Run.exists_of_checked (s := .idle { journal := .missing }) ⟨_, List.not_mem_nil, rfl⟩
      (fun _ _ => true) (fun _ _ _ => trivial)
      (samplePegOut 5000 ++ sampleSecond 5000 ++ [.step () .returns]) (by decide +kernel)
  obtain ⟨cfg, hrun, htest⟩ := hrun
  exact ⟨cfg, hrun, of_decide_eq_true htest⟩

end ChamaEscrow
