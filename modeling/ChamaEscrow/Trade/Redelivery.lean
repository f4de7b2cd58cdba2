import ChamaEscrow.Trade.Lifecycle

/-!
# Redelivered events

Relays deliver a signed event many times.  An event that a step has put into the chain is known by
its id from then on, and the two auxiliary kinds keep lists of their own; the other accepted events
leave a trace that refuses them the second time, or none.

* `redelivery_absorbed_iff`: the second delivery of an accepted event is refused or keeps the state,
  unless the event is a chat message, or came after the deadline and only expired the trade while
  its handler takes it on the expired one.
* `chat_twice`: a chat message is stored once for each delivery.
-/

namespace ChamaEscrow

open Js Library

variable {host : Host} {s s' : EscrowState} {e : ParsedEscrowEvent}

/-! ### Absorbed events -/

def Absorbs (host : Host) (s : EscrowState) (e : ParsedEscrowEvent) : Prop :=
  (∃ error, applyEvent host (some s) e = .error error) ∨ applyEvent host (some s) e = .ok s

theorem absorbs_iff : Absorbs host s e ↔ ∀ s', applyToState host s e = .ok s' → s' = s := by
  unfold Absorbs
  rw [applyEvent_some]
  cases h : applyToState host s e with
  | error error => simp
  | ok s' => simp

theorem eq_of_known (hkind : e.payload.kind.isConsensus = true) (hknown : s.hasEvent e.id = true)
    (h : applyToState host s e = .ok s') : s' = s := by
  rw [applyToState_consensus hkind] at h
  simp only [bind_eq_ok] at h
  obtain ⟨_, -, h⟩ := h
  rw [applyConsensus, if_pos hknown] at h
  exact (Except.ok.inj h).symm

theorem absorbs_of_known (hkind : e.payload.kind.isConsensus = true)
    (hknown : s.hasEvent e.id = true) : Absorbs host s e :=
  absorbs_iff.mpr fun _ h => eq_of_known hkind hknown h

theorem hasEvent_push (h : s'.eventChain = s.eventChain ++ [e]) : s'.hasEvent e.id = true := by
  simp [EscrowState.hasEvent, h]

theorem truthyKey_id (e : ParsedEscrowEvent) : truthyKey (some e.id) ≠ none := by
  simp [truthyKey, ParsedEscrowEvent.id, e.raw.id_ne]

/-! ### The steps of a lock -/

structure StepDone (lock : LockDetails) (step : LockStepKind) : Prop where
  accept : step = .accept → truthyKey lock.acceptEventId ≠ none
  release : step = .release →
    ∀ withheld, lock.withheld = some withheld → truthyKey withheld.releaseEventId ≠ none

variable {p : LockStepPayload}

theorem Handled.not_stepDone (h : Handled host s e s')
    (hp : e.payload = .lockStep p) : ¬ StepDone s.lock p.step := by
  intro hdone
  cases h
  case lockAccepted q lock next payload step status found counterparty fresh clone =>
    obtain rfl : p = q := by simpa using hp.symm.trans payload
    exact hdone.accept step fresh
  case sharesReleased q lock withheld next payload step status found held author fresh _ _ clone =>
    obtain rfl : p = q := by simpa using hp.symm.trans payload
    exact hdone.release step _ held fresh
  all_goals simp_all

theorem Handled.stepDone (h : Handled host s e s')
    (hp : e.payload = .lockStep p) : StepDone s'.lock p.step := by
  cases h
  case lockAccepted q lock next payload step _ _ _ _ _ =>
    obtain rfl : p = q := by simpa using hp.symm.trans payload
    exact ⟨fun _ => truthyKey_id e, fun hrelease => by simp [step] at hrelease⟩
  case sharesReleased q lock withheld next payload step _ _ _ _ _ _ _ _ =>
    obtain rfl : p = q := by simpa using hp.symm.trans payload
    refine ⟨fun haccept => by simp [step] at haccept, fun _ withheld hheld => ?_⟩
    obtain rfl := Option.some.inj hheld
    exact truthyKey_id e
  all_goals simp_all

theorem absorbs_of_stepDone (hp : e.payload = .lockStep p)
    (hdone : StepDone s.lock p.step) : Absorbs host s e := by
  rw [absorbs_iff]
  intro s' h
  cases applyToState_stepped h with
  | echoed => rfl
  | premium payload => simp [hp] at payload
  | settlement payload => simp [hp] at payload
  | expired kind => simp [ParsedEscrowEvent.kind, hp, EscrowPayload.kind] at kind
  | handled _ _ _ _ handled => exact absurd hdone (handled.not_stepDone hp)
  | lateHandled _ _ expires handled =>
    obtain ⟨copy, clone, rfl⟩ := expires.eq
    have hlock : copy.lock = s.lock := clone.lock
    exact absurd (hlock ▸ hdone) (handled.not_stepDone hp)

/-! ### Handled events -/

theorem Handled.absorbed (h : Handled host s e s') (hkind : e.payload.kind.isConsensus = true)
    (hchat : e.kind ≠ .chat) (hplan : ∀ p, e.payload = .planStart p → s' ≠ s) :
    Absorbs host s' e := by
  by_cases hstep : ∃ p, e.payload = .lockStep p
  · obtain ⟨p, hp⟩ := hstep
    exact absorbs_of_stepDone hp (h.stepDone hp)
  cases h
  case planRepeated payload _ _ => exact absurd rfl (hplan _ payload)
  case lockAccepted payload _ _ _ _ _ _ => exact absurd ⟨_, payload⟩ hstep
  case sharesReleased payload _ _ _ _ _ _ _ _ _ => exact absurd ⟨_, payload⟩ hstep
  case chatted payload _ _ _ =>
    exact absurd (by rw [ParsedEscrowEvent.kind, payload, EscrowPayload.kind]) hchat
  case voted clone count =>
    obtain ⟨votes, acting, rfl⟩ := countVote_eq_ok count
    exact absorbs_of_known hkind (hasEvent_push clone.push)
  case stalled clone =>
    exact absorbs_of_known hkind (hasEvent_push (congrArg (· ++ [e]) clone.eventChain))
  all_goals exact absorbs_of_known hkind (hasEvent_push (IsCopy.push (by assumption)))

/-! ### Late events -/

structure PlanOpens (s : EscrowState) (e : ParsedEscrowEvent) (p : PlanStartPayload) : Prop where
  parent : ¬ (s.chamaCircle.isSome ∨ s.trancheChild.isSome ∨ (truthyKey s.parent).isSome)
  first : s.tranchePlan = none
  valid : validatePlanStart p = none
  author : ¬ (e.pubkey ≠ s.initiator.pubkey ∨ e.pubkey ≠ p.coordinatorPubkey)
  seats : ¬ (s.participants.buyer ≠ some p.buyerPubkey
    ∨ s.participants.seller ≠ some p.sellerPubkey)
  arbiter : planArbiterGate s e p = .ok ()
  amount : ¬ (!p.totalMsats.strictEq s.amountMsats) = true
  policy : ¬ (s.sliceCount.any fun count =>
      !(p.settlementPolicy.any fun policy => s.settlementPolicy.isText policy)
        || !(p.sliceCount.any fun n => n.strictEq count)) = true

structure ChildKeyOpens (s : EscrowState) (e : ParsedEscrowEvent) (p : ChildKeyPayload)
    (tranche : TrancheChildDescriptor) : Prop where
  child : s.trancheChild = some tranche
  place : ¬ (p.parent ≠ tranche.parent ∨ p.planId ≠ tranche.planId
    ∨ !p.index.strictEq tranche.index)
  network : ¬ p.bitcoinNetwork ≠ tranche.bitcoinNetwork
  author : ¬ s.participants.get p.role ≠ some e.pubkey
  fresh : ¬ ((s.childKeys.get p.role).any fun key => key ≠ p.xOnlyPubkey) = true

/-- The accepted events that a second delivery applies again. -/
inductive Repeats (s : EscrowState) (e : ParsedEscrowEvent) : Prop
  | chat {p : ChatPayload} (payload : e.payload = .chat p) (fresh : s.hasEvent e.id = false)
      (due : isPastDeadline s e = false)
  | resolve {p : ResolvePayload} {next : EscrowState} (payload : e.payload = .resolve p)
      (fresh : s.hasEvent e.id = false) (expires : Expires s e next)
      (agreed : resolveError s.votes p = none)
  | plan {p : PlanStartPayload} {next : EscrowState} (payload : e.payload = .planStart p)
      (fresh : s.hasEvent e.id = false) (expires : Expires s e next) (opens : PlanOpens next e p)
  | childKey {p : ChildKeyPayload} {tranche : TrancheChildDescriptor} {next : EscrowState}
      (payload : e.payload = .childKey p) (fresh : s.hasEvent e.id = false)
      (expires : Expires s e next) (opens : ChildKeyOpens s e p tranche)

variable {next : EscrowState}

theorem expire_eq_ok (h : expire s = .ok next) :
    ∃ community bonded, next = { s with
      communityArbiters := .arr community
      bondedArbiters := .arr bonded
      subscription := s.subscription.map SubscriptionMeta.copy
      status := .expired } := by
  simp only [expire, bind_eq_ok, pure_eq_ok] at h
  obtain ⟨copy, hcopy, rfl⟩ := h
  obtain ⟨community, bonded, -, -, rfl⟩ := cloneState_eq_ok hcopy
  exact ⟨community, bonded, rfl⟩

/-- A copy can be copied again. -/
theorem cloneState_of_arrays {community bonded : List JsValue}
    (hcommunity : s.communityArbiters = .arr community) (hbonded : s.bondedArbiters = .arr bonded) :
    ∃ next, cloneState s = .ok next := by
  simp [cloneState, hcommunity, hbonded, JsValue.spread]

theorem handlePlanStart_ok_iff {p : PlanStartPayload} (hfirst : s.tranchePlan = none)
    (hclone : ∃ next, cloneState s = .ok next) :
    (∃ s', handlePlanStart s e p = .ok s') ↔ PlanOpens s e p := by
  obtain ⟨next, hnext⟩ := hclone
  simp only [handlePlanStart, hfirst, startPlan, bind_eq_ok, guardErr_eq_ok, guardNone_eq_ok,
    js_eq_ok, pure_eq_ok, hnext]
  constructor
  · rintro ⟨_, _, hparent, _, hvalid, _, hauthor, _, hseats, _, harbiter, _, hamount, _, hpolicy, -⟩
    exact ⟨hparent, hfirst, hvalid, hauthor, hseats, harbiter, hamount, hpolicy⟩
  · intro h
    exact ⟨_, (), h.parent, (), h.valid, (), h.author, (), h.seats, (), h.arbiter, (), h.amount, (),
      h.policy, _, rfl, rfl⟩

theorem handleChildKey_ok_iff {p : ChildKeyPayload} (hclone : ∃ next, cloneState s = .ok next) :
    (∃ s', handleChildKey s e p = .ok s') ↔ ∃ tranche, ChildKeyOpens s e p tranche := by
  obtain ⟨next, hnext⟩ := hclone
  unfold handleChildKey
  cases hchild : s.trancheChild with
  | none =>
    refine iff_of_false (by simp) ?_
    rintro ⟨tranche, h⟩
    have := h.child
    simp [hchild] at this
  | some tranche =>
    simp only [bind_eq_ok, guardErr_eq_ok, js_eq_ok, pure_eq_ok, hnext]
    constructor
    · rintro ⟨_, _, hplace, _, hnetwork, _, hauthor, _, hfresh, -⟩
      exact ⟨tranche, hchild, hplace, hnetwork, hauthor, hfresh⟩
    · rintro ⟨found, h⟩
      obtain rfl : tranche = found := by simpa [hchild] using h.child
      exact ⟨_, (), h.place, (), h.network, (), h.author, (), h.fresh, _, rfl, rfl⟩

theorem Handled.of_expired (h : Handled host s e s') (hexpired : s.status = .expired)
    (hlate : isPastDeadline s e = true) (hkind : e.kind ≠ .vote ∧ e.kind ≠ .lockStep) :
    (∃ p, e.payload = .resolve p) ∨ (∃ p, e.payload = .planStart p) ∨
        ∃ p, e.payload = .childKey p := by
  cases h
  case planRepeated payload _ _ => exact Or.inr (Or.inl ⟨_, payload⟩)
  case planStarted payload _ _ _ _ _ _ _ _ => exact Or.inr (Or.inl ⟨_, payload⟩)
  case childKey payload _ _ => exact Or.inr (Or.inr ⟨_, payload⟩)
  case resolved payload _ _ _ _ => exact Or.inl ⟨_, payload⟩
  case stalled eligibility _ _ =>
    unfold stalledPayoutEligibility at eligibility
    split at eligibility
    · simp [hexpired] at eligibility
    · cases eligibility
  case refundClaimed payload _ frozen _ _ =>
    simp [isPastDeadline, ParsedEscrowEvent.kind, payload, EscrowPayload.kind, frozen] at hlate
  case chatted opened _ => simp [hexpired, EscrowStatus.isTerminal] at opened
  all_goals simp_all [ParsedEscrowEvent.kind, EscrowPayload.kind]

theorem Handled.ne (h : Handled host s e s') (hkind : e.kind ≠ .chat ∧ e.kind ≠ .lockStep)
    (hplan : ∀ p, e.payload = .planStart p → s.tranchePlan = none) : s' ≠ s := by
  have grows {t : EscrowState} (hpush : t.eventChain = s.eventChain ++ [e]) : t ≠ s := by
    rintro rfl
    simp at hpush
  cases h
  case planRepeated payload known _ => simp [hplan _ payload] at known
  case lockAccepted payload _ _ _ _ _ _ =>
    simp [ParsedEscrowEvent.kind, payload, EscrowPayload.kind] at hkind
  case sharesReleased payload _ _ _ _ _ _ _ _ _ =>
    simp [ParsedEscrowEvent.kind, payload, EscrowPayload.kind] at hkind
  case chatted payload _ _ _ =>
    simp [ParsedEscrowEvent.kind, payload, EscrowPayload.kind] at hkind
  case voted clone count =>
    obtain ⟨votes, acting, rfl⟩ := countVote_eq_ok count
    exact grows clone.push
  case stalled clone => exact grows (congrArg (· ++ [e]) clone.eventChain)
  all_goals exact grows (IsCopy.push (by assumption))

theorem Expires.unique (h : Expires s e s') (h' : Expires s e next) : next = s' :=
  Except.ok.inj (h'.copied.symm.trans h.copied)

theorem handleResolve_ok_iff {p : ResolvePayload} (hexpired : s.status = .expired)
    (hlaw : chamaOutcomeError host s p.outcome e.timestamp e.chamaCycle .finalize p.fillEvidence
      = none) (hclone : ∃ next, cloneState s = .ok next) :
    (∃ s', handleResolve host s e p = .ok s') ↔ resolveError s.votes p = none := by
  obtain ⟨next, hnext⟩ := hclone
  simp only [handleResolve, bind_eq_ok, guardErr_eq_ok, guardNone_eq_ok, guardProblem_eq_ok,
    js_eq_ok, pure_eq_ok, hnext]
  constructor
  · rintro ⟨_, _, -, _, -, _, hagreed, -⟩
    exact hagreed
  · exact fun hagreed => ⟨_, (), hlaw, (), by simp [hexpired], (), hagreed, _, rfl, rfl⟩

/-- A late event is applied again exactly when its handler takes it on the expired copy and changes
that. -/
theorem Expires.repeats_iff (hexpires : Expires s e s') (hfresh : s.hasEvent e.id = false)
    (hkind : e.kind ≠ .vote ∧ e.kind ≠ .lockStep) (hlaw : outcomeLaw host s e = none) :
    Repeats s e ↔ ∃ t, dispatch host s' e = .ok t ∧ t ≠ s' := by
  obtain ⟨community, bonded, hs'⟩ := expire_eq_ok hexpires.copied
  have hstatus : s'.status = .expired := hexpires.status_eq
  have hclone : ∃ next, cloneState s' = .ok next :=
    cloneState_of_arrays (by rw [hs']) (by rw [hs'])
  have hlate : isPastDeadline s' e = true := by
    have := hexpires.late
    rcases hexpires.status with h | h <;> rw [hs'] <;> simpa [isPastDeadline, h] using this
  have hjudged {p : ResolvePayload} (hp : e.payload = .resolve p) :
      (∃ t, handleResolve host s' e p = .ok t) ↔ resolveError s.votes p = none := by
    have hvotes : s'.votes = s.votes := by rw [hs']
    rw [outcomeLaw, hp] at hlaw
    rw [handleResolve_ok_iff hstatus (by rw [hs']; exact hlaw) hclone, hvotes]
  have hopens {p : ChildKeyPayload} {tranche : TrancheChildDescriptor} :
      ChildKeyOpens s' e p tranche ↔ ChildKeyOpens s e p tranche := by
    rw [hs']
    constructor
    · rintro ⟨a, b, c, d, f⟩
      exact ⟨a, b, c, d, f⟩
    · rintro ⟨a, b, c, d, f⟩
      exact ⟨a, b, c, d, f⟩
  have changed {t : EscrowState} (ht : dispatch host s' e = .ok t) (hchat : e.kind ≠ .chat)
      (hplan : ∀ p, e.payload = .planStart p → s'.tranchePlan = none) :
      ∃ t, dispatch host s' e = .ok t ∧ t ≠ s' :=
    ⟨t, ht, (dispatch_handled ht).ne ⟨hchat, hkind.2⟩ hplan⟩
  constructor
  · intro h
    cases h with
    | chat payload fresh due =>
      rw [hexpires.late] at due
      cases due
    | resolve payload fresh expires agreed =>
      obtain ⟨t, ht⟩ := (hjudged payload).mpr agreed
      refine changed (t := t) (by rw [dispatch, payload]; exact ht) ?_ (by simp [payload])
      simp [ParsedEscrowEvent.kind, payload, EscrowPayload.kind]
    | plan payload fresh expires opens =>
      obtain rfl := hexpires.unique expires
      obtain ⟨t, ht⟩ := (handlePlanStart_ok_iff opens.first hclone).mpr opens
      refine changed (t := t) (by rw [dispatch, payload]; exact ht) ?_ fun _ _ => opens.first
      simp [ParsedEscrowEvent.kind, payload, EscrowPayload.kind]
    | childKey payload fresh expires opens =>
      obtain ⟨t, ht⟩ := (handleChildKey_ok_iff hclone).mpr ⟨_, hopens.mpr opens⟩
      refine changed (t := t) (by rw [dispatch, payload]; exact ht) ?_ (by simp [payload])
      simp [ParsedEscrowEvent.kind, payload, EscrowPayload.kind]
  · rintro ⟨t, ht, hne⟩
    have hhandled : Handled host s' e t := dispatch_handled ht
    rcases hhandled.of_expired hstatus hlate hkind with ⟨p, hp⟩ | ⟨p, hp⟩ | ⟨p, hp⟩
    · rw [dispatch, hp] at ht
      exact .resolve hp hfresh hexpires ((hjudged hp).mp ⟨t, ht⟩)
    · rw [dispatch, hp] at ht
      cases hplan : s'.tranchePlan with
      | none => exact .plan hp hfresh hexpires ((handlePlanStart_ok_iff hplan hclone).mp ⟨t, ht⟩)
      | some plan =>
        simp only [handlePlanStart, hplan, bind_eq_ok, guardErr_eq_ok, pure_eq_ok] at ht
        obtain ⟨-, -, -, -, rfl⟩ := ht
        exact absurd rfl hne
    · rw [dispatch, hp] at ht
      obtain ⟨tranche, opens⟩ := (handleChildKey_ok_iff hclone).mp ⟨t, ht⟩
      exact .childKey hp hfresh hexpires (hopens.mp opens)

theorem Expires.absorbs_iff (hexpires : Expires s e s') (hfresh : s.hasEvent e.id = false)
    (hconsensus : e.payload.kind.isConsensus = true)
    (hkind : e.kind ≠ .vote ∧ e.kind ≠ .lockStep) (hlaw : outcomeLaw host s e = none) :
    Absorbs host s' e ↔ ¬ Repeats s e := by
  obtain ⟨community, bonded, hs'⟩ := expire_eq_ok hexpires.copied
  have happly : applyToState host s' e = dispatch host s' e :=
    applyToState_dispatch hconsensus (by rw [hs']; exact hlaw) (by rw [hs']; exact hfresh)
      (by rw [hexpires.status_eq]; rfl) (Or.inr hexpires.status_eq)
  rw [hexpires.repeats_iff hfresh hkind hlaw, ChamaEscrow.absorbs_iff, happly]
  simp

/-! ### Chat messages -/

theorem not_absorbs_chat {p : ChatPayload} (hp : e.payload = .chat p)
    (hfresh : s.hasEvent e.id = false) (hdue : isPastDeadline s e = false)
    (h : applyToState host s e = .ok s') : ¬ Absorbs host s' e := by
  have hkind : e.payload.kind.isConsensus = true := by rw [hp]; rfl
  have hlaw : ∀ s, outcomeLaw host s e = none := fun s => by rw [outcomeLaw, hp]
  have hopen : s.status.isTrulyTerminal = false := by
    rw [applyToState_consensus hkind] at h
    simp only [applyConsensus, hfresh, Bool.false_eq_true, if_false, bind_eq_ok,
      guardErr_eq_ok] at h
    obtain ⟨-, -, -, hopen, -⟩ := h
    simpa using hopen
  rw [applyToState_dispatch hkind (hlaw s) hfresh hopen (Or.inl hdue), dispatch, hp] at h
  simp only [handleChat, bind_eq_ok, guardErr_eq_ok, js_eq_ok, pure_eq_ok] at h
  obtain ⟨-, hseated, -, hopened, next, hnext, hs'⟩ := h
  obtain ⟨community, bonded, -, -, hcopy⟩ := cloneState_eq_ok hnext
  rw [hcopy] at hs'
  have happly : applyToState host s' e = handleChat s' e := by
    rw [applyToState_dispatch hkind (hlaw _) (by rw [← hs']; exact hfresh)
      (by rw [← hs']; exact hopen) (Or.inl (by rw [← hs']; exact hdue)), dispatch, hp]
  obtain ⟨again, hagain⟩ := cloneState_of_arrays (s := s') (by rw [← hs']) (by rw [← hs'])
  have hagain' : again.chatMessages = s'.chatMessages := by
    obtain ⟨_, _, -, -, rfl⟩ := cloneState_eq_ok hagain
    rfl
  have hstored : handleChat s' e = .ok { again with chatMessages := again.chatMessages ++
      [e] } := by
    simp only [handleChat, bind_eq_ok, guardErr_eq_ok, js_eq_ok, pure_eq_ok]
    refine ⟨(), ?_, (), ?_, again, hagain, rfl⟩
    · rw [← hs']
      exact hseated
    · rw [← hs']
      exact hopened
  rw [absorbs_iff, happly]
  intro hall
  have hsame := congrArg EscrowState.chatMessages (hall _ hstored)
  simp [hagain'] at hsame

/-! ### Redelivery -/

theorem absorbs_premium {p : PremiumPayload} (hp : e.payload = .premium p)
    (h : applyToState host s e = .ok s') : Absorbs host s' e := by
  refine Or.inr ?_
  rw [applyEvent_some]
  simp only [applyToState, hp] at h ⊢
  by_cases hknown : s.premiumNotes.any fun v => v.id = e.id
  · have hsame := h
    rw [handlePremium, if_pos hknown] at hsame
    exact Except.ok.inj hsame ▸ h
  · rw [handlePremium, if_neg hknown] at h
    simp only [bind_eq_ok, guardErr_eq_ok, js_eq_ok, pure_eq_ok] at h
    obtain ⟨-, -, next, -, rfl⟩ := h
    rw [handlePremium, if_pos (by simp)]

theorem absorbs_settlement {p : SettlementPayload} (hp : e.payload = .settlement p)
    (h : applyToState host s e = .ok s') : Absorbs host s' e := by
  refine Or.inr ?_
  rw [applyEvent_some]
  simp only [applyToState, hp] at h ⊢
  by_cases hknown : s.settlements.any fun m => m.raw.id = e.id
  · have hsame := h
    rw [handleSettlement, if_pos hknown] at hsame
    exact Except.ok.inj hsame ▸ h
  · rw [handleSettlement, if_neg hknown] at h
    simp only [bind_eq_ok, guardErr_eq_ok, js_eq_ok, pure_eq_ok] at h
    obtain ⟨-, -, next, -, rfl⟩ := h
    rw [handleSettlement, if_pos (by simp [ParsedEscrowEvent.id])]

theorem Repeats.isConsensus (h : Repeats s e) :
    e.payload.kind.isConsensus = true ∧ e.kind ≠ .vote ∧ e.kind ≠ .lockStep ∧
      s.hasEvent e.id = false := by
  rw [ParsedEscrowEvent.kind]
  cases h with
  | chat payload fresh => exact ⟨by rw [payload]; rfl, by simp [payload, EscrowPayload.kind, fresh]⟩
  | resolve payload fresh =>
    exact ⟨by rw [payload]; rfl, by simp [payload, EscrowPayload.kind, fresh]⟩
  | plan payload fresh => exact ⟨by rw [payload]; rfl, by simp [payload, EscrowPayload.kind, fresh]⟩
  | childKey payload fresh =>
    exact ⟨by rw [payload]; rfl, by simp [payload, EscrowPayload.kind, fresh]⟩

theorem outcomeLaw_of_applyToState (hkind : e.payload.kind.isConsensus = true)
    (h : applyToState host s e = .ok s') : outcomeLaw host s e = none := by
  rw [applyToState_consensus hkind] at h
  simp only [bind_eq_ok, guardNone_eq_ok] at h
  exact h.choose_spec.1

theorem Handled.of_chat (h : Handled host s e s') (hchat : e.kind = .chat) :
    ∃ p, e.payload = .chat p ∧ s.status.isTerminal = false := by
  cases h
  case chatted payload _ opened _ => exact ⟨_, payload, opened⟩
  case planRepeated => simp_all [ParsedEscrowEvent.kind, EscrowPayload.kind]
  all_goals simp_all [ParsedEscrowEvent.kind, EscrowPayload.kind]

theorem Stepped.eq_of_expires (h : Stepped host s e s')
    (hexpires : Expires s e next) (hfresh : s.hasEvent e.id = false)
    (hconsensus : e.payload.kind.isConsensus = true)
    (hkind : e.kind ≠ .vote ∧ e.kind ≠ .lockStep) : s' = next := by
  have hconsensus : e.kind ≠ .premium ∧ e.kind ≠ .settlement := by
    rw [ParsedEscrowEvent.kind]
    constructor <;> (intro hkind; rw [hkind] at hconsensus; cases hconsensus)
  cases h with
  | echoed known => simp [hfresh, hconsensus] at known
  | premium payload => simp [ParsedEscrowEvent.kind, payload, EscrowPayload.kind] at hconsensus
  | settlement payload => simp [ParsedEscrowEvent.kind, payload, EscrowPayload.kind] at hconsensus
  | expired _ expires => exact hexpires.unique expires
  | handled _ _ due =>
    rcases due with hdue | hdue
    · rw [hexpires.late] at hdue
      cases hdue
    · have := hexpires.status
      simp [hdue] at this
  | lateHandled _ kind => simp [hkind] at kind

theorem absorbs_of_not_repeats (h : applyToState host s e = .ok s') (hrepeats : ¬ Repeats s e) :
    Absorbs host s' e := by
  by_cases hpremium : ∃ p, e.payload = .premium p
  · exact absorbs_premium hpremium.choose_spec h
  by_cases hsettlement : ∃ p, e.payload = .settlement p
  · exact absorbs_settlement hsettlement.choose_spec h
  have hkind : e.payload.kind.isConsensus = true := by
    cases hp : e.payload <;> simp_all [EscrowPayload.kind, EscrowEventKind.isConsensus,
        applyToState]
  have hlaw : outcomeLaw host s e = none := outcomeLaw_of_applyToState hkind h
  by_cases hsame : s' = s
  · rw [hsame] at h ⊢
    exact Or.inr (applyEvent_some.trans h)
  cases applyToState_stepped h with
  | echoed => exact absurd rfl hsame
  | premium payload => exact absurd ⟨_, payload⟩ hpremium
  | settlement payload => exact absurd ⟨_, payload⟩ hsettlement
  | expired hvote expires =>
    by_cases hfresh : s.hasEvent e.id = true
    · exact absurd (eq_of_known hkind hfresh h) hsame
    · exact (expires.absorbs_iff (by simpa using hfresh) hkind hvote hlaw).mpr hrepeats
  | handled fresh opened due law handled =>
    refine handled.absorbed hkind (fun hchat => hrepeats ?_) fun _ _ => hsame
    obtain ⟨p, hp, hopen⟩ := handled.of_chat hchat
    refine .chat hp fresh (due.resolve_right fun hexpired => ?_)
    simp [hexpired, EscrowStatus.isTerminal] at hopen
  | lateHandled fresh kind expires handled =>
    refine handled.absorbed hkind (fun hchat => ?_) fun p hp => ?_
    · simp [hchat] at kind
    · simp [ParsedEscrowEvent.kind, hp, EscrowPayload.kind] at kind

/-- The second delivery of an accepted event is refused or keeps the state, unless the event is one
of those that are applied again. -/
theorem redelivery_absorbed_iff (host : Host) (s : EscrowState) (e : ParsedEscrowEvent)
    (s' : EscrowState) (h : applyEvent host (some s) e = .ok s') :
    ((∃ error, applyEvent host (some s') e = .error error) ∨ applyEvent host (some s') e = .ok s') ↔
      ¬ Repeats s e := by
  rw [applyEvent_some] at h
  refine ⟨fun habsorbs hrepeats => ?_, absorbs_of_not_repeats h⟩
  obtain ⟨hkind, hvote, hstep, -⟩ := hrepeats.isConsensus
  have hlaw : outcomeLaw host s e = none := outcomeLaw_of_applyToState hkind h
  have late {next : EscrowState} (hfresh : s.hasEvent e.id = false) (expires : Expires s e next) :
      False := by
    obtain rfl := (applyToState_stepped h).eq_of_expires expires hfresh hkind ⟨hvote, hstep⟩
    exact (expires.absorbs_iff hfresh hkind ⟨hvote, hstep⟩ hlaw).mp habsorbs hrepeats
  cases hrepeats with
  | chat payload fresh due => exact not_absorbs_chat payload fresh due h habsorbs
  | resolve _ fresh expires => exact late fresh expires
  | plan _ fresh expires => exact late fresh expires
  | childKey _ fresh expires => exact late fresh expires

theorem redelivery_absorbed_iff_sample :
    ∃ s s', applyEvent silentHost none sampleCreate = .ok s ∧
      applyEvent silentHost (some s) sampleJoin = .ok s' ∧
      ((∃ error, applyEvent silentHost (some s') sampleJoin = .error error) ∨
        applyEvent silentHost (some s') sampleJoin = .ok s') := by
  have hrun : ((applyEvent silentHost none sampleCreate).toOption.any fun s =>
      (applyEvent silentHost (some s) sampleJoin).toOption.any fun _ => true) = true := by
    decide +kernel
  obtain ⟨s, hs, hrun⟩ := exists_ok_of_any hrun
  obtain ⟨s', hjoin, -⟩ := exists_ok_of_any hrun
  refine ⟨s, s', hs, hjoin, (redelivery_absorbed_iff silentHost s sampleJoin s' hjoin).mpr ?_⟩
  intro hrepeats
  cases hrepeats <;> simp_all [sampleJoin, sampleEvent]

def sampleChat : ParsedEscrowEvent := sampleEvent '3' 'b' 1800000015 (.chat {
  message := "hello"
  senderRole := .buyer
  sentAt := 1800000015 })

/-- A chat message is stored once for each delivery. -/
theorem chat_twice :
    ∃ s s' s'', Reached silentHost s ∧ applyEvent silentHost (some s) sampleChat = .ok s' ∧
      applyEvent silentHost (some s') sampleChat = .ok s'' ∧ s'' ≠ s' := by
  have hrun : (liveTrade silentHost sampleCreate [sampleJoin]).any (fun s =>
      (applyEvent silentHost (some s) sampleChat).toOption.any fun s' =>
        (applyEvent silentHost (some s') sampleChat).toOption.any fun s'' =>
          s'.chatMessages.length = 1 && s''.chatMessages.length = 2) = true := by
    decide +kernel
  obtain ⟨s, hs, h⟩ := (Option.any_eq_true _ _).mp hrun
  obtain ⟨s', hs', h⟩ := exists_ok_of_any h
  obtain ⟨s'', hs'', h⟩ := exists_ok_of_any h
  simp only [Bool.and_eq_true, decide_eq_true_eq] at h
  refine ⟨s, s', s'', liveTrade_reached silentHost hs, hs', hs'', ?_⟩
  rintro rfl
  omega

end ChamaEscrow
