import ChamaEscrow.Client.PaidOnce
import ChamaEscrow.Client.RecoveryPayout
import Mathlib.Data.List.Pairwise

/-!
# One guard for claims and drains

Claims and drains by one winner follow one another on a journal, each stopped anywhere.  A drain
records no intent before it pays, passes over the intent of a claim, and pays without a key when it
takes a settled record for that of other sats.

* `shared_guard`: at each payment of an escrow its earlier payments are resolved, as long as each
  run is started where the payments that may still arrive stand under a record that its guard heeds,
  and no storage fault makes the guard overlook a record or lets an outdated one stand.
* `drained_twice`: a drain is cut off while its payment is under way, and the next one pays again.
-/

namespace ChamaEscrow

open Js Library

variable {id key : String} {op op' : Option String} {w w' : PayoutWorld}

/-! ### Payments that are not resolved -/

def IsSettled (r : Option PayoutRecord) : Prop := ∃ prior, r = some prior ∧ prior.status = .settled

/-- A payment that may still arrive, or has arrived without a settled record of the escrow. -/
def Unresolved (id : String) (op : Option String) (w : PayoutWorld) : Prop :=
  ∃ d ∈ w.dispatches, d.escrowId = id ∧ d.operationId = op ∧ d.isDead = false ∧
    (d.fate = .settled → ¬ IsSettled (recordFor id w.journal))

theorem alive_of_unresolved (h : Unresolved id op w) : Alive id op w := by
  obtain ⟨d, hd, hid, hop, hdead, -⟩ := h
  exact ⟨d, hd, hid, hop, hdead⟩

theorem unresolved_of_alive (hopen : ¬ IsSettled (recordFor id w.journal)) (h : Alive id op w) :
    Unresolved id op w := by
  obtain ⟨d, hd, hid, hop, hdead⟩ := h
  exact ⟨d, hd, hid, hop, hdead, fun _ => hopen⟩

theorem resolved_iff : (∀ op, ¬ Unresolved id op w) ↔ ∀ d ∈ w.dispatches, d.escrowId = id →
    d.isDead = true ∨ (d.fate = .settled ∧ IsSettled (recordFor id w.journal)) := by
  constructor
  · intro h d hd hid
    by_contra hneither
    obtain ⟨hdead, hsettled⟩ := not_or.mp hneither
    exact h d.operationId ⟨d, hd, hid, rfl, by simpa using hdead,
      fun hfate hrecord => hsettled ⟨hfate, hrecord⟩⟩
  · rintro h op ⟨d, hd, hid, -, hdead, hopen⟩
    rcases h d hd hid with hdead' | ⟨hfate, hrecord⟩
    · rw [hdead'] at hdead
      cases hdead
    · exact hopen hfate hrecord

theorem unresolved_congr (hrecord : recordFor id w'.journal = recordFor id w.journal)
    (hdispatches : ∀ d ∈ w'.dispatches, d.escrowId = id → d ∈ w.dispatches)
    (h : Unresolved id op w') : Unresolved id op w := by
  obtain ⟨d, hd, hid, hop, hdead, hopen⟩ := h
  exact ⟨d, hdispatches d hd hid, hid, hop, hdead, hrecord ▸ hopen⟩

/-- A payment that is under way. -/
def Live (id : String) (op : Option String) (w : PayoutWorld) : Prop :=
  ∃ d ∈ w.dispatches, d.escrowId = id ∧ d.operationId = op ∧ d.fate = .live

variable {fate : Fate} {operationId : String}

theorem unresolved_dispatch (h : Unresolved id op (w.dispatch key operationId fate)) :
    Unresolved id op w ∨ op = some operationId := by
  obtain ⟨d, hd, hid, hop, hdead, hopen⟩ := h
  rcases List.mem_append.mp hd with hd | hd
  · exact Or.inl ⟨d, hd, hid, hop, hdead, hopen⟩
  · obtain rfl := List.mem_singleton.mp hd
    refine Or.inr ?_
    rw [← hop]
    refine if_neg fun hfate => ?_
    simp [Dispatch.isDead, hfate] at hdead

variable {index : ℕ}

theorem resolve_unresolved (h : w.resolve index fate = some w')
    (hunresolved : Unresolved id op w') : Unresolved id op w := by
  obtain ⟨d, hd, hid, hop, hdead, hopen⟩ := hunresolved
  have hjournal := resolve_journal h
  unfold PayoutWorld.resolve at h
  split at h
  · rename_i e he
    split_ifs at h with hlive
    obtain rfl := Option.some.inj h
    rcases List.mem_or_eq_of_mem_set hd with hd | rfl
    · exact ⟨d, hd, hid, hop, hdead, hopen⟩
    · refine ⟨e, List.mem_of_getElem? he, hid, hop, by simp [Dispatch.isDead, hlive.1], ?_⟩
      intro hfate
      rw [hlive.1] at hfate
      cases hfate
  · cases h

theorem resolve_live (h : w.resolve index fate = some w')
    (hlive : Live id op w') : Live id op w := by
  obtain ⟨d, hd, hid, hop, hfate⟩ := hlive
  unfold PayoutWorld.resolve at h
  split at h
  · split_ifs at h with hends
    obtain rfl := Option.some.inj h
    rcases List.mem_or_eq_of_mem_set hd with hd | rfl
    · exact ⟨d, hd, hid, hop, hfate⟩
    · dsimp only at hfate
      rcases hends.2 with hsettled | hrefunded
      · rw [hsettled] at hfate
        cases hfate
      · rw [hrefunded] at hfate
        cases hfate
  · cases h

theorem live_of_unresolved (hsettled : IsSettled (recordFor id w.journal))
    (h : Unresolved id op w) : Live id op w := by
  obtain ⟨d, hd, hid, hop, hdead, hopen⟩ := h
  refine ⟨d, hd, hid, hop, ?_⟩
  cases hfate : d.fate with
  | live => rfl
  | settled => exact absurd hsettled (hopen hfate)
  | unsubmitted | refunded => simp [Dispatch.isDead, hfate] at hdead

/-! ### Operations are distinct -/

def OperationsDistinct (w : PayoutWorld) : Prop :=
  (w.dispatches.map Dispatch.operationId).Pairwise fun a b => ∀ o, a = some o → b ≠ some o

theorem OperationsDistinct.eq (h : OperationsDistinct w) {d e : Dispatch} {o : String}
    (hd : d ∈ w.dispatches) (he : e ∈ w.dispatches) (hdo : d.operationId = some o)
    (heo : e.operationId = some o) : d = e := by
  by_contra hne
  have hsymm : Std.Symm fun d e : Dispatch =>
      ∀ o, d.operationId = some o → e.operationId ≠ some o :=
    ⟨fun a b hab o hb ha => hab o ha hb⟩
  exact (List.pairwise_map.mp h).forall hd he hne o hdo heo

variable {c : PayoutChoice} {hook : PayoutOp}

theorem OperationsDistinct.perform {r : hook.Reply}
    (h : OperationsDistinct w) (hperform : performHook hook w c = some (r, w')) :
    OperationsDistinct w' := by
  cases hook with
  | markPayoutSettled | recordPayoutSubmitted | recordPayoutIntent =>
    obtain ⟨f, now, message, -, rfl⟩ := journalHook_eq_some hperform
    exact h
  | clearPayoutRecord =>
    obtain ⟨f, now, message, -, rfl⟩ := clearHook_eq_some hperform
    exact h
  | payInvoice =>
    obtain ⟨fate, operationId, hfresh, -, rfl⟩ := payInvoiceHook_eq_some hperform
    unfold OperationsDistinct PayoutWorld.dispatch
    rw [List.map_append, List.pairwise_append]
    refine ⟨h, List.pairwise_singleton _ _, fun a ha b hb o hao hbo => ?_⟩
    obtain ⟨d, hd, rfl⟩ := List.mem_map.mp ha
    obtain rfl := List.mem_singleton.mp hb
    have hnew := List.all_eq_true.mp (Bool.and_eq_true_iff.mp hfresh).2 d hd
    dsimp only at hbo
    split_ifs at hbo
    rw [hao, ← hbo] at hnew
    exact absurd rfl (of_decide_eq_true hnew)
  | _ =>
    have hdispatches := (quiet_perform rfl hperform).2
    unfold OperationsDistinct
    rw [hdispatches]
    exact h

theorem OperationsDistinct.resolve (h : OperationsDistinct w)
    (hresolve : w.resolve index fate = some w') : OperationsDistinct w' := by
  unfold PayoutWorld.resolve at hresolve
  split at hresolve
  · rename_i d hd
    split_ifs at hresolve
    obtain rfl := Option.some.inj hresolve
    obtain ⟨hlt, hget⟩ := List.getElem?_eq_some_iff.mp hd
    unfold OperationsDistinct
    rw [List.map_set]
    have hsame : (w.dispatches.map Dispatch.operationId).set index d.operationId =
        w.dispatches.map Dispatch.operationId := by
      subst hget
      rw [← List.getElem_map Dispatch.operationId (h := by simpa using hlt)]
      exact List.set_getElem_self _
    change ((w.dispatches.map Dispatch.operationId).set index d.operationId).Pairwise _
    rw [hsame]
    exact h
  · cases hresolve

/-! ### The invariant -/

/-- What holds between any two steps: of the payments of the escrow at most one is unresolved, and a
submitted record that names an operation names that one. -/
structure SharedInv (id : String) (w : PayoutWorld) : Prop where
  one : ∀ op op', Unresolved id op w → Unresolved id op' w → op = op'
  named : ∀ operationId, namedOperation (recordFor id w.journal) = some operationId →
    ∀ op, Unresolved id op w → op = some operationId
  intent : ∀ r, recordFor id w.journal = some r → r.status = .intent → r.operationId = none
  distinct : OperationsDistinct w

theorem sharedInv_of_payoutInv (h : PayoutInv id w) (hdistinct : OperationsDistinct w) :
    SharedInv id w where
  one op op' hop hop' := h.one op op' (alive_of_unresolved hop) (alive_of_unresolved hop')
  named operationId hnamed op hop := h.named operationId hnamed op (alive_of_unresolved hop)
  intent := h.intent
  distinct := hdistinct

theorem payoutInv_of_sharedInv (h : SharedInv id w) (hopen : ¬ IsSettled (recordFor id w.journal))
    (hrecorded : recordFor id w.journal = none → ∀ op, ¬ Unresolved id op w) : PayoutInv id w where
  one op op' hop hop' :=
    h.one op op' (unresolved_of_alive hopen hop) (unresolved_of_alive hopen hop')
  recorded hnone op hop := hrecorded hnone op (unresolved_of_alive hopen hop)
  named operationId hnamed op hop := h.named operationId hnamed op (unresolved_of_alive hopen hop)
  intent := h.intent

theorem SharedInv.congr (h : SharedInv id w)
    (hrecord : recordFor id w'.journal = recordFor id w.journal)
    (hdispatches : ∀ d ∈ w'.dispatches, d.escrowId = id → d ∈ w.dispatches)
    (hdistinct : OperationsDistinct w') : SharedInv id w' where
  one op op' hop hop' := h.one op op' (unresolved_congr hrecord hdispatches hop)
    (unresolved_congr hrecord hdispatches hop')
  named operationId hnamed op hop := h.named operationId (hrecord ▸ hnamed) op
    (unresolved_congr hrecord hdispatches hop)
  intent := hrecord ▸ h.intent
  distinct := hdistinct

theorem PayoutInv.stable (h : PayoutInv id w) (hrely : (payoutDiscipline id).rely w w') :
    PayoutInv id w' where
  one op op' hop hop' := h.one op op' (hrely.2 id op hop) (hrely.2 id op' hop')
  recorded hnone op hop := h.recorded (hrely.1 ▸ hnone) op (hrely.2 id op hop)
  named operationId hnamed op hop := h.named operationId (hrely.1 ▸ hnamed) op (hrely.2 id op hop)
  intent := hrely.1 ▸ h.intent

/-! ### The discipline -/

/-- The choices that count: those of the guard of claims; a write that would forget the records of
other escrows does not count, and the upgrade of a submitted record is stored. -/
def GuardSpared (hook : PayoutOp) (w : PayoutWorld) (c : PayoutChoice) : Prop :=
  FaultsSpared hook w c ∧
    match hook, c with
    | .markPayoutSettled id _, .storage f _ _ =>
      (f.read = true → ∀ key, key ≠ id → recordFor key w.journal = none) ∧
        ((∃ r, recordFor id w.journal = some r ∧ r.status = .submitted) → f.Clears)
    | .recordPayoutSubmitted id _ _, .storage f _ _ | .recordPayoutIntent id _, .storage f _ _ =>
      f.read = true → ∀ key, key ≠ id → recordFor key w.journal = none
    | _, _ => True

/-- What the runs are held to, for one escrow. -/
def sharedDiscipline (id : String) : Discipline payoutPlatform where
  inv := SharedInv id
  demand hook w := ∀ bolt11, hook = .payInvoice id bolt11 → ∀ op, ¬ Unresolved id op w
  allow := GuardSpared
  rely w w' := (w'.journal = w.journal ∧ ∀ key op, Alive key op w' → Alive key op w) ∧
    ∀ key op, (Unresolved key op w' → Unresolved key op w) ∧ (Live key op w' → Live key op w)
  rely_refl _ := ⟨⟨rfl, fun _ _ h => h⟩, fun _ _ => ⟨fun h => h, fun h => h⟩⟩
  rely_trans h h' := ⟨⟨h'.1.1.trans h.1.1, fun key op ha => h.1.2 key op (h'.1.2 key op ha)⟩,
    fun key op => ⟨fun hu => (h.2 key op).1 ((h'.2 key op).1 hu),
      fun hl => (h.2 key op).2 ((h'.2 key op).2 hl)⟩⟩

/-- What a run knows of the escrow: something of its record, and of its unresolved payment. -/
structure Sees (id : String) (P : Option PayoutRecord → Prop) (R : Option String → Prop)
    (w : PayoutWorld) : Prop where
  record : P (recordFor id w.journal)
  unresolved : ∀ op, Unresolved id op w → R op

variable {P : Option PayoutRecord → Prop} {R : Option String → Prop}

theorem sees_stable : (sharedDiscipline id).Stable (Sees id P R) := by
  intro w w₁ h hrely _
  exact ⟨hrely.1.1 ▸ h.record, fun op hop => h.unresolved op ((hrely.2 id op).1 hop)⟩

theorem sees_nothing (w : PayoutWorld) : Sees id (fun _ => True) (fun _ => True) w :=
  ⟨trivial, fun _ _ => trivial⟩

variable {s : Stored Journal}

variable {f : Faults}

section Calls

variable {α : Type} {Q : α → PayoutWorld → Prop}

theorem guard_hook {k : hook.Reply → PayoutProg α} (hquiet : hook.isQuiet = true)
    (hw : Sees id P R w) (h : ∀ w₁ c r w₂, SharedInv id w₁ → GuardSpared hook w₁ c →
      performHook hook w₁ c = some (r, w₂) → Sees id P R w₂ →
        (sharedDiscipline id).Safe Q (k r) w₂) : (sharedDiscipline id).Safe Q (.call hook k) w := by
  refine Discipline.safe_call sees_stable hw fun w₁ hw₁ hinv => ⟨?_, ?_⟩
  · rintro bolt11 rfl
    cases hquiet
  · intro c r w₂ hallow hperform
    obtain ⟨hjournal, hdispatches⟩ := quiet_perform hquiet hperform
    have hrecord : recordFor id w₂.journal = recordFor id w₁.journal := by rw [hjournal]
    have hkept : ∀ d ∈ w₂.dispatches, d.escrowId = id → d ∈ w₁.dispatches :=
      fun d hd _ => hdispatches ▸ hd
    refine ⟨hinv.congr hrecord hkept (hinv.distinct.perform hperform),
      h w₁ c r w₂ hinv hallow hperform ⟨hrecord ▸ hw₁.record, fun op hop => ?_⟩⟩
    exact hw₁.unresolved op (unresolved_congr hrecord hkept hop)

theorem guard_of_quiet {p : PayoutProg α} (hp : Quiet p) :
    (sharedDiscipline id).Safe (fun _ _ => True) p w := by
  induction p generalizing w with
  | ret a => trivial
  | call hook k ih =>
    obtain ⟨hapart, hrest⟩ := Prog.everywhere_call.mp hp
    exact guard_hook (isQuiet_of_isApart hapart) (sees_nothing w)
      fun _ _ r _ _ _ _ _ => ih r (hrest r)

theorem updateJournal_kept {change : Journal → Option Journal}
    (hchange : ∀ journal next, change journal = some next → next.get id = journal.get id)
    (hread : f.read = true → recordFor id s = none) :
    recordFor id (updateJournal f s change).2 = recordFor id s := by
  rcases updateJournal_cases f s change with hsame | ⟨journal, next, hload, hnext, hvalue⟩
  · rw [hsame]
  · rw [hvalue, recordFor_value, hchange journal next hnext, get_of_load hload]
    split_ifs with hfailed
    · exact (hread hfailed).symm
    · rfl

theorem clearPayoutRecord_kept (hkey : id ≠ key) :
    recordFor id (clearPayoutRecord f key s) = recordFor id s := by
  unfold clearPayoutRecord
  by_cases hread : f.read = true
  · rcases updateJournal_cases f s (withoutRecord key) with hsame | ⟨journal, next, hload, hnext, -⟩
    · rw [hsame]
    · have hget := get_of_load hload key
      rw [if_pos hread] at hget
      unfold withoutRecord at hnext
      rw [hget] at hnext
      cases hnext
  · exact updateJournal_kept (fun _ _ hnext => (withoutRecord_eq_some hnext).2 id hkey)
      fun hfailed => absurd hfailed hread

theorem guard_of_keepsTo (hkey : key ≠ id) {p : PayoutProg α} (hp : KeepsTo key p) :
    (sharedDiscipline id).Safe (fun _ _ => True) p w := by
  induction p generalizing w with
  | ret a => trivial
  | call hook k ih =>
    obtain ⟨hkeeps, hrest⟩ := Prog.everywhere_call.mp hp
    refine Discipline.safe_call sees_stable (sees_nothing w) fun w₁ _ hinv => ⟨?_, ?_⟩
    · rintro bolt11 rfl
      exact absurd hkeeps.symm hkey
    · intro c r w₂ hallow hperform
      change performHook hook w₁ c = some (r, w₂) at hperform
      have hdistinct := hinv.distinct.perform hperform
      refine ⟨?_, ih r (hrest r)⟩
      have hjournal {run : Faults → JsNumber → Except StorageError Unit × Stored Journal}
          {r : Except Thrown Unit} (h : journalHook w₁ run c = some (r, w₂))
          (hrun : ∀ f now message, c = .storage f now message →
            recordFor id (run f now).2 = recordFor id w₁.journal) : SharedInv id w₂ := by
        unfold journalHook at h
        split at h
        · obtain ⟨-, rfl⟩ := Prod.mk.inj (Option.some.inj h)
          exact hinv.congr (hrun _ _ _ rfl) (fun d hd _ => hd) hdistinct
        · cases h
      cases hook with
      | markPayoutSettled =>
        obtain rfl : _ = key := hkeeps
        refine hjournal hperform fun f now message hc => ?_
        subst hc
        exact updateJournal_kept (fun _ _ hnext => (withSettled_eq_some hnext).2 id hkey.symm)
          fun hread => hallow.2.1 hread id hkey.symm
      | recordPayoutSubmitted =>
        obtain rfl : _ = key := hkeeps
        refine hjournal hperform fun f now message hc => ?_
        subst hc
        exact updateJournal_kept (fun _ _ hnext => (withSubmitted_eq_some hnext).2.1 id hkey.symm)
          fun hread => hallow.2 hread id hkey.symm
      | recordPayoutIntent =>
        obtain rfl : _ = key := hkeeps
        refine hjournal hperform fun f now message hc => ?_
        subst hc
        exact updateJournal_kept (fun _ _ hnext => (withIntent_eq_some hnext).2 id hkey.symm)
          fun hread => hallow.2 hread id hkey.symm
      | clearPayoutRecord =>
        obtain rfl : _ = key := hkeeps
        obtain ⟨f, now, message, -, rfl⟩ := clearHook_eq_some hperform
        exact hinv.congr (clearPayoutRecord_kept hkey.symm) (fun d hd _ => hd) hdistinct
      | payInvoice =>
        obtain rfl : _ = key := hkeeps
        obtain ⟨fate, operationId, -, -, rfl⟩ := payInvoiceHook_eq_some hperform
        refine hinv.congr rfl (fun d hd hid => ?_) hdistinct
        rcases List.mem_append.mp hd with hd | hd
        · exact hd
        · obtain rfl := List.mem_singleton.mp hd
          exact absurd hid hkey
      | _ =>
        obtain ⟨hjournal, hdispatches⟩ := quiet_perform rfl hperform
        exact hinv.congr (by rw [hjournal]) (fun d hd _ => hdispatches ▸ hd) hdistinct

theorem guard_quiet_bind {β : Type} {p : PayoutProg β} {f : β → PayoutProg α} (hp : Quiet p)
    (hw : Sees id P R w) (h : ∀ b w', Sees id P R w' → (sharedDiscipline id).Safe Q (f b) w') :
    (sharedDiscipline id).Safe Q (p >>= f) w := by
  induction p generalizing w with
  | ret b => exact h b w hw
  | call hook k ih =>
    obtain ⟨hapart, hrest⟩ := Prog.everywhere_call.mp hp
    exact guard_hook (isQuiet_of_isApart hapart) hw fun _ _ r _ _ _ _ hw => ih r (hrest r) hw

end Calls

/-! ### Claims -/

section Claims

variable {o : ClaimAndPayoutOpts}

theorem guard_settledClaim (hw : Sees o.escrowId IsSettled R w) :
    (sharedDiscipline o.escrowId).Safe (fun _ _ => True) (runClaimAndPayout o) w := by
  refine guard_quiet_bind quiet_preflight hw fun terminal w hw => ?_
  cases terminal with
  | some => trivial
  | none =>
    have hends : (sharedDiscipline o.escrowId).Safe (fun terminal _ => terminal.isSome = true)
        (payoutGuard o) w := by
      refine guard_hook rfl hw fun _ _ r w _ _ _ hw => ?_
      cases r with
      | error => rfl
      | ok =>
        refine guard_hook rfl hw fun w₁ c prior w₂ _ hallow hperform hw => ?_
        obtain ⟨rfl, rfl⟩ := read_eq_record hallow.1 hperform
        obtain ⟨prior, hprior, hsettled⟩ := hw.record
        rw [hprior]
        obtain ⟨_, status, _, _, _, _⟩ := prior
        obtain rfl : status = .settled := hsettled
        exact guard_hook rfl hw fun _ _ _ _ _ _ _ hw =>
          guard_hook rfl hw fun _ _ _ _ _ _ _ _ => rfl
    refine Discipline.safe_bind (Discipline.safe_mono (fun terminal w hsome => ?_) hends)
    cases terminal with
    | none => cases hsome
    | some => trivial

theorem guard_runClaimAndPayout (hinv : SharedInv o.escrowId w)
    (hcovered : recordFor o.escrowId w.journal = none → ∀ op, ¬ Unresolved o.escrowId op w) :
    (sharedDiscipline o.escrowId).Safe (fun _ _ => True) (runClaimAndPayout o) w := by
  by_cases hsettled : IsSettled (recordFor o.escrowId w.journal)
  · exact guard_settledClaim (R := fun _ => True) ⟨hsettled, fun _ _ => trivial⟩
  · refine Discipline.safe_transfer (D := payoutDiscipline o.escrowId) (E := OperationsDistinct)
      ?_ ?_ ?_ ?_ ?_ ?_ ?_ (payoutInv_of_sharedInv hinv hsettled hcovered) safe_runClaimAndPayout
    · exact fun _ _ hrely => hrely.1
    · exact fun _ _ h hrely => h.stable hrely
    · exact fun _ h => h.distinct
    · exact fun _ h hdistinct => sharedInv_of_payoutInv h hdistinct
    · exact fun _ _ _ _ _ h hperform => h.perform hperform
    · rintro _ w hpaysOnce bolt11 rfl op hop
      exact alive_iff_not_dead.mpr hpaysOnce op (alive_of_unresolved hop)
    · exact fun _ _ _ hallow => hallow.1

end Claims

/-! ### Drains -/

section Drains

variable {o : RecoveryPayoutOpts} {α : Type} {Q : α → PayoutWorld → Prop}

theorem SharedInv.withJournal {journal : Stored Journal} (h : SharedInv id w)
    (hopen : ¬ IsSettled (recordFor id w.journal))
    (hnamed : ∀ operationId, namedOperation (recordFor id journal) = some operationId →
      ∀ op, Unresolved id op w → op = some operationId)
    (hintent : ∀ r, recordFor id journal = some r → r.status = .intent → r.operationId = none) :
    SharedInv id (w.withJournal journal) := by
  have hbefore (op : Option String) (hop : Unresolved id op (w.withJournal journal)) :
      Unresolved id op w :=
    unresolved_of_alive hopen ((alive_withJournal journal).mp (alive_of_unresolved hop))
  exact ⟨fun op op' hop hop' => h.one op op' (hbefore op hop) (hbefore op' hop'),
    fun operationId hop op hunresolved => hnamed operationId hop op (hbefore op hunresolved),
    hintent, h.distinct⟩

theorem namedOperation_of_settled {r : PayoutRecord} (h : r.status = .settled) :
    namedOperation (some r) = none := by
  rw [namedOperation, h, if_neg (by decide)]

theorem guard_markPayoutSettled {k : Except Thrown Unit → PayoutProg α}
    {A : PayoutWorld → Prop} (hA : (sharedDiscipline id).Stable A) (hw : A w)
    (hopen : ∀ w, A w → ¬ IsSettled (recordFor id w.journal))
    (h : ∀ w₁ f now r, A w₁ → ((∃ prior, recordFor id w₁.journal = some prior ∧
      prior.status = .submitted) → f.Clears) → (sharedDiscipline id).Safe Q (k r)
        (w₁.withJournal (markPayoutSettled f now id op w₁.journal).2)) :
    (sharedDiscipline id).Safe Q (.call (.markPayoutSettled id op) k) w := by
  refine Discipline.safe_call hA hw fun w₁ hw₁ hinv => ⟨nofun, ?_⟩
  intro c r w₂ hallow hperform
  change journalHook _ _ c = some (r, w₂) at hperform
  unfold journalHook at hperform
  split at hperform
  · rename_i f now message
    obtain ⟨-, rfl⟩ := Prod.mk.inj (Option.some.inj hperform)
    refine ⟨?_, h w₁ f now r hw₁ hallow.2.2⟩
    rcases markPayoutSettled_cases f now id op w₁.journal with hsame | ⟨prior, hprior, hsettled⟩
    · rw [hsame]
      exact hinv
    · refine hinv.withJournal (hopen w₁ hw₁) (fun operationId hnamed => ?_) fun r hr hintent => ?_
      · rw [hprior, namedOperation_of_settled hsettled] at hnamed
        cases hnamed
      · rw [hprior] at hr
        obtain rfl := Option.some.inj hr
        rw [hsettled] at hintent
        cases hintent
  · cases hperform

theorem markPayoutSettled_stored {now : JsNumber}
    {prior : PayoutRecord} (hf : f.Clears) (hprior : recordFor id s = some prior) :
    IsSettled (recordFor id (markPayoutSettled f now id op s).2) := by
  cases s with
  | value journal =>
    have hload : loadJournalStrict f (.value journal) = .ok journal := by
      unfold loadJournalStrict
      rw [readItem_ok hf.1]
    obtain ⟨next, hnext⟩ : ∃ next, withSettled now id op journal = some next := ⟨_, rfl⟩
    obtain ⟨r, hr, hstatus⟩ := (withSettled_eq_some hnext).1
    refine ⟨r, ?_, hstatus⟩
    have hstored : (saveJournal f (.value journal) next).2 = .value next := by
      unfold saveJournal Stored.writeItem
      cases hfault : f.write with
      | none => rfl
      | some fault =>
        cases fault with
        | lost => exact absurd hfault hf.2
        | kept => rfl
    unfold markPayoutSettled updateJournal
    rw [hload]
    dsimp only
    rw [hnext]
    dsimp only
    rw [hstored]
    exact hr
  | _ => cases hprior

/-- A payment of an escrow with nothing unresolved: it is the only one that may become so. -/
theorem guard_payInvoice {bolt11 : String} {k : Except Thrown (Option String) → PayoutProg α}
    (hw : Sees id P (fun _ => False) w) (hunnamed : ∀ r, P r → namedOperation r = none)
    (h : ∀ w₁ fate operationId r, PayoutWorld.replyFits fate operationId r = true →
      Sees id P (fun op => op = some operationId) w₁ →
      (sharedDiscipline id).Safe Q (k r) w₁) :
    (sharedDiscipline id).Safe Q (.call (.payInvoice id bolt11) k) w := by
  refine Discipline.safe_call sees_stable hw fun w₁ hw₁ hinv => ⟨fun _ _ => hw₁.unresolved, ?_⟩
  intro c r w₂ _ hperform
  change performHook (.payInvoice id bolt11) w₁ c = some (r, w₂) at hperform
  have hdistinct := hinv.distinct.perform hperform
  obtain ⟨fate, operationId, -, hfits, rfl⟩ := payInvoiceHook_eq_some hperform
  have honly : ∀ op, Unresolved id op (w₁.dispatch id operationId fate) → op = some operationId :=
    fun op hop => (unresolved_dispatch hop).resolve_left (hw₁.unresolved op)
  refine ⟨⟨fun op op' hop hop' => (honly op hop).trans (honly op' hop').symm,
    fun named hnamed => ?_, hinv.intent, hdistinct⟩, h _ fate operationId r hfits ⟨hw₁.record, honly⟩⟩
  exact absurd ((hunnamed _ hw₁.record).symm.trans hnamed) nofun

theorem guard_drainKeyless (hw : Sees o.key (fun r => namedOperation r = none) (fun _ => False) w) :
    (sharedDiscipline o.key).Safe (fun _ _ => True) (drainBalance o false) w := by
  refine guard_payInvoice hw (fun _ h => h) fun w₁ fate operationId r _ _ => ?_
  cases r with
  | ok => exact guard_of_quiet quiet_finishDrained
  | error e =>
    change (sharedDiscipline o.key).Safe _ (if _ then _ else _) _
    split_ifs <;> trivial

theorem guard_drainThrew {e : Thrown}
    (hfits : PayoutWorld.replyFits fate operationId (.error e) = true)
    (hw : Sees o.key (fun r => r = none) (fun op => op = some operationId) w) :
    (sharedDiscipline o.key).Safe (fun _ _ => True) (drainThrew o e true) w := by
  have hopen {r : Option PayoutRecord} (hr : r = none) : ¬ IsSettled r := by
    rintro ⟨prior, hprior, -⟩
    rw [hr] at hprior
    cases hprior
  change (sharedDiscipline o.key).Safe _ (if _ then _ else _) _
  split_ifs with hinflight
  · refine Discipline.safe_call sees_stable hw fun w₁ hw₁ hinv => ⟨by rintro _ ⟨⟩, ?_⟩
    intro c r w₂ _ hperform
    obtain ⟨f, now, message, -, rfl⟩ := journalHook_eq_some hperform
    refine ⟨?_, trivial⟩
    rcases recordPayoutSubmitted_cases f now o.key e.operationId (some o.amountMsats)
      w₁.journal with hsame | ⟨r, hr, hstatus, hfrom⟩
    · rw [hsame]
      exact hinv
    · refine hinv.withJournal (hopen hw₁.record) (fun named hnamed op hop => ?_)
        fun r' hr' hintent => ?_
      · rw [hw₁.unresolved op hop]
        rw [hr, namedOperation, if_pos hstatus, Option.filter_eq_some_iff] at hnamed
        rcases hfrom with hgiven | ⟨r₀, hr₀, -, -⟩
        · unfold PayoutWorld.replyFits at hfits
          dsimp only at hfits
          rw [hinflight] at hfits
          obtain ⟨-, hall⟩ := Bool.and_eq_true_iff.mp hfits
          rw [← hgiven, hnamed.1] at hall
          exact congrArg some (of_decide_eq_true hall).symm
        · rw [hw₁.record] at hr₀
          cases hr₀
      · rw [hr] at hr'
        obtain rfl := Option.some.inj hr'
        rw [hstatus] at hintent
        cases hintent
  · refine Discipline.safe_call sees_stable hw fun w₁ hw₁ hinv => ⟨by rintro _ ⟨⟩, ?_⟩
    intro c r w₂ _ hperform
    obtain ⟨f, now, message, -, rfl⟩ := clearHook_eq_some hperform
    have hnone : recordFor o.key (clearPayoutRecord f o.key w₁.journal) = none := by
      rcases clearPayoutRecord_cases f o.key w₁.journal with hsame | hnone
      · rw [hsame]
        exact hw₁.record
      · exact hnone
    refine ⟨hinv.withJournal (hopen hw₁.record) (fun named hnamed => ?_) fun r hr => ?_, trivial⟩
    · rw [hnone] at hnamed
      cases hnamed
    · rw [hnone] at hr
      cases hr

theorem guard_drainKeyed (hw : Sees o.key (fun r => r = none) (fun _ => False) w) :
    (sharedDiscipline o.key).Safe (fun _ _ => True) (drainGuarded o true) w := by
  refine guard_hook rfl hw fun _ _ r w _ _ _ hw => ?_
  cases r with
  | error => trivial
  | ok =>
    refine guard_payInvoice hw ?_ fun w₁ fate operationId r hfits hw₁ => ?_
    · rintro _ rfl
      rfl
    · cases r with
      | error e => exact guard_drainThrew hfits hw₁
      | ok op =>
        refine guard_markPayoutSettled sees_stable hw₁ ?_ fun _ _ _ r _ _ => ?_
        · rintro w hw ⟨prior, hprior, -⟩
          rw [hw.record] at hprior
          cases hprior
        · cases r with
          | ok => exact guard_of_quiet quiet_finishDrained
          | error => trivial

/-- What the guard of a drain leaves: with a key there is no record, without one the record names no
operation, and nothing is unresolved. -/
def DrainReady (id : String) (g : RecoveryGuard) (w : PayoutWorld) : Prop :=
  match g with
  | .error _ => True
  | .ok true => Sees id (fun r => r = none) (fun _ => False) w
  | .ok false => Sees id (fun r => namedOperation r = none) (fun _ => False) w

theorem guard_dropStaleKey (hw : Sees id IsSettled (fun _ => False) w) :
    (sharedDiscipline id).Safe (DrainReady id) dropStaleKey w := by
  refine guard_hook rfl hw fun _ _ r w _ _ _ hw => ?_
  have hready : DrainReady id (.ok false) w := by
    refine ⟨?_, hw.unresolved⟩
    obtain ⟨prior, hprior, hsettled⟩ := hw.record
    rw [hprior]
    exact namedOperation_of_settled hsettled
  cases r with
  | error => trivial
  | ok balance =>
    change (sharedDiscipline id).Safe (DrainReady id) (if _ then _ else _) w
    split_ifs
    · exact hready
    · trivial

theorem watch_settled (hdistinct : OperationsDistinct w)
    (h : performHook (.awaitPayoutOutcome operationId) w c = some (.ok .settled, w')) :
    ¬ Live id (some operationId) w := by
  obtain ⟨hanswer, rfl⟩ := answered h
  have hfits : w'.watchFits operationId .settled = true := by
    cases c with
    | watch =>
      dsimp only [PayoutWorld.answer] at hanswer
      split_ifs at hanswer with hfits
      cases hanswer
      exact hfits
    | _ => cases hanswer
  rintro ⟨e, he, -, heo, hlive⟩
  obtain ⟨d, hd, hfit⟩ := List.any_eq_true.mp hfits
  obtain ⟨hdo, hfate⟩ := Bool.and_eq_true_iff.mp hfit
  obtain rfl := hdistinct.eq hd he (of_decide_eq_true hdo) heo
  rw [hlive] at hfate
  exact absurd (of_decide_eq_true hfate) (by decide)

theorem guard_reattachRecovery {prior : PayoutRecord} (hsubmitted : prior.status = .submitted)
    (hw : Sees id (fun r => r = some prior) R w) :
    (sharedDiscipline id).Safe (DrainReady id) (reattachRecovery id prior.operationId) w := by
  have hopen {r : Option PayoutRecord} (hr : r = some prior) : ¬ IsSettled r := by
    rintro ⟨prior', hprior', hsettled⟩
    rw [hr] at hprior'
    obtain rfl := Option.some.inj hprior'
    rw [hsubmitted] at hsettled
    cases hsettled
  unfold reattachRecovery
  cases hfilter : prior.operationId.filter (· ≠ "") with
  | none => trivial
  | some operationId =>
    have hnamed {r : Option PayoutRecord} (hr : r = some prior) :
        namedOperation r = some operationId := by
      rw [hr, namedOperation, if_pos hsubmitted]
      exact hfilter
    refine guard_hook rfl hw fun w₁ c r w₂ hinv hallow hperform hw₂ => ?_
    have hsame : w₂ = w₁ := (answered hperform).2
    cases r with
    | error => trivial
    | ok outcome =>
      cases outcome with
      | unknown => trivial
      | settled =>
        have hended : ∀ op, ¬ Live id op w₂ := by
          rintro op hlive
          obtain ⟨d, hd, hid, hop, hfate⟩ := hlive
          have hunresolved : Unresolved id op w₂ := ⟨d, hd, hid, hop,
            by simp [Dispatch.isDead, hfate], fun hsettled => by simp [hfate] at hsettled⟩
          rw [hsame] at hunresolved hd
          obtain rfl := hinv.named operationId (hnamed (hsame ▸ hw₂.record)) op hunresolved
          exact watch_settled hinv.distinct hperform ⟨d, hd, hid, hop, hfate⟩
        refine guard_markPayoutSettled
          (A := fun w => recordFor id w.journal = some prior ∧ ∀ op, ¬ Live id op w) ?_
          ⟨hw₂.record, hended⟩ (fun w hw => hopen hw.1) fun w₃ f now r hw₃ hclears => ?_
        · intro w w' hw hrely _
          exact ⟨hrely.1.1 ▸ hw.1, fun op hlive => hw.2 op ((hrely.2 id op).2 hlive)⟩
        · have hstored : IsSettled (recordFor id
              (markPayoutSettled f now id (some operationId) w₃.journal).2) :=
            markPayoutSettled_stored (hclears ⟨prior, hw₃.1, hsubmitted⟩) hw₃.1
          refine guard_dropStaleKey ⟨hstored, fun op hop => ?_⟩
          have hlive : Live id op (w₃.withJournal _) := live_of_unresolved hstored hop
          exact hw₃.2 op hlive
      | refunded =>
        have hdead : ∀ op, ¬ Unresolved id op w₂ := by
          intro op hop
          rw [hsame] at hop
          obtain rfl := hinv.named operationId (hnamed (hsame ▸ hw₂.record)) op hop
          exact (watch_refunded hperform).2 (alive_of_unresolved hop)
        refine Discipline.safe_call sees_stable
          (⟨hw₂.record, hdead⟩ : Sees id (fun r => r = some prior) (fun _ => False) w₂)
          fun w₃ hw₃ hinv₃ => ⟨by rintro _ ⟨⟩, ?_⟩
        intro c r w₄ hallow hperform
        obtain ⟨f, now, message, rfl, rfl⟩ := clearHook_eq_some hperform
        have hnone : recordFor id (clearPayoutRecord f id w₃.journal) = none := by
          refine recordFor_clearPayoutRecord (hallow.1 ?_)
          rw [hnamed hw₃.record]
          rfl
        have hinv₄ : SharedInv id (w₃.withJournal (clearPayoutRecord f id w₃.journal)) := by
          refine hinv₃.withJournal (hopen hw₃.record) (fun named hop => ?_) fun r hr => ?_
          · rw [hnone] at hop
            cases hop
          · rw [hnone] at hr
            cases hr
        refine ⟨hinv₄, hnone, fun op hop => hw₃.unresolved op ?_⟩
        exact unresolved_of_alive (hopen hw₃.record)
          ((alive_withJournal _).mp (alive_of_unresolved hop))

theorem guard_heedRecord {r : Option PayoutRecord} (hw : Sees id (fun r' => r' = r) R w)
    (hcovered : (∀ prior, r = some prior → prior.status ≠ .submitted) →
      ∀ op, ¬ Unresolved id op w) :
    (sharedDiscipline id).Safe (DrainReady id) (heedRecord id r) w := by
  cases r with
  | none => exact ⟨hw.record, hcovered (by simp)⟩
  | some prior =>
    have hresolved (hstatus : prior.status ≠ .submitted) : ∀ op, ¬ Unresolved id op w :=
      hcovered fun prior' hprior' => by
        obtain rfl := Option.some.inj hprior'
        exact hstatus
    obtain ⟨escrowId, status, operationId, amountMsats, createdAt, settledAt⟩ := prior
    cases status with
    | intent => exact ⟨by rw [hw.record]; rfl, hresolved (by simp)⟩
    | settled => exact guard_dropStaleKey ⟨⟨_, hw.record, rfl⟩, hresolved (by simp)⟩
    | submitted => exact guard_reattachRecovery rfl hw

theorem guard_runRecoveryPayout (hkey : o.key ≠ "")
    (hcovered : (∀ r, recordFor o.key w.journal = some r → r.status ≠ .submitted) →
      ∀ op, ¬ Unresolved o.key op w) :
    (sharedDiscipline o.key).Safe (fun _ _ => True) (runRecoveryPayout o) w := by
  have hguard : (sharedDiscipline o.key).Safe (DrainReady o.key) (recoveryGuard o.key) w := by
    have hw : Sees o.key (fun r => r = recordFor o.key w.journal)
        (fun op => Unresolved o.key op w) w := ⟨rfl, fun _ h => h⟩
    refine guard_hook rfl hw fun w₁ c prior w₂ _ hallow hperform hw₂ => ?_
    obtain ⟨rfl, rfl⟩ := read_eq_record hallow.1 hperform
    have hsame := hw₂.record
    refine guard_heedRecord (R := fun _ => True) ⟨rfl, fun _ _ => trivial⟩ fun hrecord op hop => ?_
    exact hcovered (hsame ▸ hrecord) op (hw₂.unresolved op hop)
  unfold runRecoveryPayout
  rw [if_neg hkey]
  refine Discipline.safe_bind (Discipline.safe_mono (fun g w' hready => ?_) hguard)
  cases g with
  | error => trivial
  | ok keyed =>
    cases keyed with
    | true => exact guard_drainKeyed hready
    | false => exact guard_drainKeyless hready

end Drains

/-! ### Runs -/

/-- Where a run may be started: what is unresolved of its escrow stands under a record that its
guard heeds, a submitted one for a drain, and any for a claim. -/
def StartCovered : PayoutRun → PayoutWorld → Prop
  | .claim o, w => recordFor o.escrowId w.journal = none → ∀ op, ¬ Unresolved o.escrowId op w
  | .recovery o, w => o.key ≠ "" →
    (∀ r, recordFor o.key w.journal = some r → r.status ≠ .submitted) →
      ∀ op, ¬ Unresolved o.key op w

def GuardCovered (cfg : Config payoutPlatform Unit Unit) :
    Event payoutPlatform Unit PayoutRun → Prop
  | .start _ run => StartCovered run cfg.world
  | .step i c => ∀ op k, cfg.slots i = some (.call op k) → GuardSpared op cfg.world c
  | _ => True

theorem guard_payoutFlow {run : PayoutRun} (hid : id ≠ "") (hinv : SharedInv id w)
    (hcovered : StartCovered run w) :
    (sharedDiscipline id).Safe (fun _ _ => True) (payoutFlow run) w := by
  by_cases hrun : run.escrowId = id
  · subst hrun
    cases run with
    | claim o =>
      exact Discipline.safe_bind (Discipline.safe_mono (fun _ _ _ => trivial)
        (guard_runClaimAndPayout hinv hcovered))
    | recovery o =>
      exact Discipline.safe_bind (Discipline.safe_mono (fun _ _ _ => trivial)
        (guard_runRecoveryPayout hid (hcovered hid)))
  · exact guard_of_keepsTo hrun (keepsTo_payoutFlow run)

theorem SharedInv.resolve (h : SharedInv id w) (hresolve : w.resolve index fate = some w') :
    SharedInv id w' ∧ (sharedDiscipline id).rely w w' := by
  have hjournal := resolve_journal hresolve
  refine ⟨⟨fun op op' hop hop' => ?_, fun operationId hnamed op hop => ?_, ?_, ?_⟩,
    ⟨hjournal, fun _ _ => resolve_alive hresolve⟩,
    fun _ _ => ⟨resolve_unresolved hresolve, resolve_live hresolve⟩⟩
  · exact h.one op op' (resolve_unresolved hresolve hop) (resolve_unresolved hresolve hop')
  · exact h.named operationId (hjournal ▸ hnamed) op (resolve_unresolved hresolve hop)
  · exact hjournal ▸ h.intent
  · exact h.distinct.resolve hresolve

/-- In every sequence of claims and drains on a journal that was empty, each stopped anywhere, with
the events that count, the earlier payments of an escrow are resolved at each of its payments. -/
theorem shared_guard (hid : id ≠ "") {cfg : Config payoutPlatform Unit Unit}
    (h : Run (Config.exec payoutFlow) (Idle fun w => ∀ key, Unpaid key w) GuardCovered cfg)
    {bolt11 : String} {k : Except Thrown (Option String) → PayoutProg Unit}
    (hpays : cfg.slots () = some (.call (.payInvoice id bolt11) k)) :
    ∀ d ∈ cfg.world.dispatches, d.escrowId = id →
      d.isDead = true ∨ (d.fate = .settled ∧ IsSettled (recordFor id cfg.world.journal)) := by
  have hslots := slots_invariant_of_start (J := SharedInv id)
    (K := (sharedDiscipline id).Safe fun _ _ => True) ?_ ?_ ?_ ?_ h
  · have hsafe := hslots.2 () _ hpays cfg.world ((sharedDiscipline id).rely_refl _) hslots.1
    exact resolved_iff.mp (hsafe.1 bolt11 rfl)
  · rintro _ ⟨w, hunpaid, rfl⟩
    have hnone : w.dispatches = [] := by
      refine List.eq_nil_iff_forall_not_mem.mpr fun d hd => ?_
      exact (hunpaid d.escrowId).2 d hd rfl
    have hresolved (op : Option String) : ¬ Unresolved id op w := by
      rintro ⟨d, hd, -⟩
      rw [hnone] at hd
      cases hd
    refine ⟨⟨fun op _ hop => absurd hop (hresolved op), fun _ _ op hop => absurd hop (hresolved op),
      fun r hr => ?_, ?_⟩, fun _ _ hp => by cases hp⟩
    · have hempty := (hunpaid id).1
      change recordFor id w.journal = some r at hr
      rw [hempty] at hr
      cases hr
    · unfold OperationsDistinct
      change (w.dispatches.map Dispatch.operationId).Pairwise _
      rw [hnone]
      exact List.Pairwise.nil
  · exact fun cfg i run hcovered hinv => guard_payoutFlow hid hinv hcovered
  · intro cfg i c op k r w hcounts hp hinv hsafe hperform
    obtain ⟨hinv', hnext⟩ :=
      (hsafe cfg.world ((sharedDiscipline id).rely_refl _) hinv).2 c r w (hcounts op k hp) hperform
    exact ⟨hinv', hnext, fun j p hj _ _ => absurd (Subsingleton.elim j i) hj⟩
  · intro cfg c w' _ hinv hdrift
    cases c with
    | resolves index fate =>
      obtain ⟨hinv', hrely⟩ := hinv.resolve hdrift
      exact ⟨hinv', fun i p _ hp => Discipline.safe_of_rely hrely hp⟩
    | _ => cases hdrift

/-! ### Sample runs -/

/-- The escrow of the payment that a run is about to make. -/
def draining : Option (PayoutProg Unit) → Option String
  | some (.call (.payInvoice escrowId _) _) => some escrowId
  | _ => none

theorem draining_eq_some {slot : Option (PayoutProg Unit)} (h : draining slot = some id) :
    ∃ bolt11 k, slot = some (.call (.payInvoice id bolt11) k) := by
  unfold draining at h
  split at h
  · rename_i bolt11 k
    obtain rfl := Option.some.inj h
    exact ⟨bolt11, k, rfl⟩
  · cases h

/-- A drain of what the escrow `e` left. -/
def sampleRecovery : RecoveryPayoutOpts :=
  { bolt11 := "lnbc", traceContext := some ⟨"e", 1000⟩ }

def faultless : Event payoutPlatform Unit PayoutRun := .step () (.storage .none 0 "")

def drainSteps : List (Event payoutPlatform Unit PayoutRun) :=
  [.start () (.recovery sampleRecovery), faultless, faultless]

theorem unpaid_idle : Idle (fun w => ∀ key, Unpaid key w)
    (.idle { journal := .missing } : Config payoutPlatform Unit Unit) :=
  ⟨{ journal := .missing }, fun _ => unpaid_missing, rfl⟩

/-- The page is closed while the payment `a` of a drain is under way; the next drain finds no record
and pays again. -/
theorem drained_twice : ∃ cfg : Config payoutPlatform Unit Unit,
    Run (Config.exec payoutFlow) (Idle fun w => ∀ key, Unpaid key w) (fun _ _ => True) cfg ∧
      (∃ bolt11 k, cfg.slots () = some (.call (.payInvoice "e" bolt11) k)) ∧
      ∃ d ∈ cfg.world.dispatches, d.escrowId = "e" ∧ d.fate = .live := by
  have hrun : ∃ cfg : Config payoutPlatform Unit Unit,
      Run (Config.exec payoutFlow) (Idle fun w => ∀ key, Unpaid key w) (fun _ _ => True) cfg ∧
      (draining (cfg.slots ()) = some "e" &&
        cfg.world.dispatches.any fun d => d.escrowId = "e" && d.fate = .live) = true :=
    Run.exists_of_checked unpaid_idle (fun _ _ => true) (fun _ _ _ => trivial)
      (drainSteps ++ [.step () (.pays .live "a" (.error {})), .stop ()] ++ drainSteps)
      (by decide +kernel)
  obtain ⟨cfg, hrun, htest⟩ := hrun
  rw [Bool.and_eq_true, decide_eq_true_eq, List.any_eq_true] at htest
  obtain ⟨hdraining, d, hd, hlive⟩ := htest
  exact ⟨cfg, hrun, draining_eq_some hdraining, d, hd, by simpa using hlive⟩

/-- Whether an event counts, where nothing is unresolved but under a submitted record. -/
def guardCovers (cfg : Config payoutPlatform Unit Unit) : Event payoutPlatform Unit PayoutRun → Bool
  | .start _ run => cfg.world.dispatches.isEmpty ||
    (recordFor run.escrowId cfg.world.journal).any fun r => r.status = .submitted
  | .step _ (.storage f _ _) => f = .none
  | _ => true

theorem guardSpared_of_faultless
    (hc : ∀ f now message, c = .storage f now message → f = .none) : GuardSpared hook w c := by
  cases c with
  | storage f now message =>
    obtain rfl := hc f now message rfl
    have hclears : Faults.Clears .none := ⟨rfl, nofun⟩
    cases hook with
    | getPayoutRecord => exact ⟨nofun, trivial⟩
    | clearPayoutRecord => exact ⟨fun _ => hclears, trivial⟩
    | markPayoutSettled => exact ⟨trivial, nofun, fun _ => hclears⟩
    | recordPayoutSubmitted | recordPayoutIntent => exact ⟨trivial, nofun⟩
    | _ => exact ⟨trivial, trivial⟩
  | _ => cases hook <;> exact ⟨trivial, trivial⟩

theorem guardCovered_of_guardCovers (cfg : Config payoutPlatform Unit Unit)
    (ev : Event payoutPlatform Unit PayoutRun) (h : guardCovers cfg ev = true) :
    GuardCovered cfg ev := by
  cases ev with
  | start i run =>
    rcases Bool.or_eq_true_iff.mp h with hnone | hsubmitted
    · have hresolved (key : String) (op : Option String) : ¬ Unresolved key op cfg.world := by
        rintro ⟨d, hd, -⟩
        rw [List.isEmpty_iff.mp hnone] at hd
        cases hd
      cases run with
      | claim o => exact fun _ => hresolved o.escrowId
      | recovery o => exact fun _ _ => hresolved o.key
    · obtain ⟨r, hr, hstatus⟩ := (Option.any_eq_true _ _).mp hsubmitted
      cases run with
      | claim o =>
        intro hnone
        change recordFor o.escrowId _ = some r at hr
        rw [hnone] at hr
        cases hr
      | recovery o => exact fun _ hopen => absurd (of_decide_eq_true hstatus) (hopen r hr)
  | step i c =>
    refine fun op k _ => guardSpared_of_faultless fun f now message hc => ?_
    subst hc
    exact of_decide_eq_true h
  | _ => trivial

/-- After a refund the next drain pays anew. -/
theorem shared_guard_refund : ∃ cfg : Config payoutPlatform Unit Unit,
    cfg.world.dispatches ≠ [] ∧
      (∃ bolt11 k, cfg.slots () = some (.call (.payInvoice "e" bolt11) k)) ∧
      ∀ d ∈ cfg.world.dispatches, d.escrowId = "e" →
        d.isDead = true ∨ (d.fate = .settled ∧ IsSettled (recordFor "e" cfg.world.journal)) := by
  have hrun : ∃ cfg : Config payoutPlatform Unit Unit,
      Run (Config.exec payoutFlow) (Idle fun w => ∀ key, Unpaid key w) GuardCovered cfg ∧
      (draining (cfg.slots ()) = some "e" && !cfg.world.dispatches.isEmpty) = true :=
    Run.exists_of_checked unpaid_idle guardCovers guardCovered_of_guardCovers
      (drainSteps ++ [.step () (.pays .live "a"
          (.error { code := some .lnPayInflight, operationId := some "a" })), faultless,
          .drift (.resolves 0 .refunded), .start () (.recovery sampleRecovery), faultless,
          .step () (.watch .refunded), faultless, faultless])
      (by decide +kernel)
  obtain ⟨cfg, hrun, htest⟩ := hrun
  rw [Bool.and_eq_true, decide_eq_true_eq] at htest
  obtain ⟨bolt11, k, hpays⟩ := draining_eq_some htest.1
  exact ⟨cfg, by simpa using htest.2, ⟨bolt11, k, hpays⟩, shared_guard (by decide) hrun hpays⟩

end ChamaEscrow
