import ChamaEscrow.Js.Rounding
import ChamaEscrow.Trade.Votes

/-!
# Outsiders

What an event of a key that holds no place in a funded trade can do.  Each handler asks its own
author rule, so the answer needs to know that the keys those rules name are seated: the initiator
(`InitiatorSeated`) and the funder who held back shares (`FunderSeated`).

* `outsider_moves_iff`: an outsider moves a funded trade with a RESOLVE of agreed votes and with the
  COMPLETE of a claimed ecash trade, and with nothing else.
-/

namespace ChamaEscrow

open Js Library

variable {host : Host} {s s' : EscrowState} {e : ParsedEscrowEvent}

/-! ### The initiator's seat -/

/-- The creator of a trade sits in its seat, without a hold that could lapse.  The seats of a
tranche child are those of its plan. -/
structure InitiatorSeated (s : EscrowState) : Prop where
  role : s.initiator.role ≠ .arbiter
  key : s.initiator.pubkey ≠ ""
  hold : s.joinHolds.get s.initiator.role = none
  seat : s.trancheChild = none → s.participants.get s.initiator.role = some s.initiator.pubkey

theorem Newborn.initiatorSeated {p : CreatePayload} (h : Newborn e p s) : InitiatorSeated s := by
  obtain ⟨arbiter, hparticipants⟩ := h.participants
  refine ⟨?_, ?_, ?_, fun hchild => ?_⟩
  · rw [h.initiator]
    unfold createSeats
    split
    · simp
    · split_ifs <;> simp
  · rw [h.initiator]
    exact e.raw.pubkey_ne
  · rw [h.joinHolds]
    cases s.initiator.role <;> rfl
  · rw [h.trancheChild] at hchild
    rw [h.initiator, hparticipants]
    unfold createSeats
    rw [hchild]
    dsimp only
    split_ifs <;> rfl

theorem InitiatorSeated.congr (hs : InitiatorSeated s) (hterms : s'.toTradeTerms = s.toTradeTerms)
    (hhold : s'.joinHolds.get s.initiator.role = s.joinHolds.get s.initiator.role)
    (hseat : s.trancheChild = none →
      s'.participants.get s.initiator.role = s.participants.get s.initiator.role) :
    InitiatorSeated s' := by
  have hinitiator : s'.initiator = s.initiator := congrArg TradeTerms.initiator hterms
  have hchild : s'.trancheChild = s.trancheChild := congrArg TradeTerms.trancheChild hterms
  refine ⟨?_, ?_, ?_, fun h => ?_⟩
  · rw [hinitiator]
    exact hs.role
  · rw [hinitiator]
    exact hs.key
  · rw [hinitiator, hhold]
    exact hs.hold
  · rw [hchild] at h
    rw [hinitiator, hseat h]
    exact hs.seat h

variable {pubkey : String} {role : Role}

theorem joinedAtLock_of_no_hold (hseat : s.participants.get role = some pubkey) (hkey : pubkey ≠ "")
    (hhold : s.joinHolds.get role = none) : joinedAtLock s e role = some pubkey := by
  unfold joinedAtLock
  split_ifs with hterms
  · rw [hseat]
    exact truthyKey_some hkey
  · unfold getEffectiveParticipantAt
    rw [hseat, truthyKey_some hkey, hhold]
    simp [hterms]

theorem get_of_principals {p q : PerRole (Option String)} (hrole : role ≠ .arbiter)
    (hbuyer : p.buyer = q.buyer) (hseller : p.seller = q.seller) : p.get role = q.get role := by
  cases role with
  | buyer => exact hbuyer
  | seller => exact hseller
  | arbiter => exact absurd rfl hrole

variable {next : EscrowState}

theorem IsCopy.buyer (clone : IsCopy s next) : next.participants.buyer = s.participants.buyer :=
  congrArg PerRole.buyer clone.participants

theorem IsCopy.seller (clone : IsCopy s next) : next.participants.seller = s.participants.seller :=
  congrArg PerRole.seller clone.participants

theorem Handled.initiatorSeated (h : Handled host s e s') (hs : InitiatorSeated s) :
    InitiatorSeated s' := by
  have kept {next t : EscrowState} (clone : IsCopy s next)
      (hterms : t.toTradeTerms = next.toTradeTerms) (hholds : t.joinHolds = next.joinHolds)
      (hparticipants : t.participants = next.participants) : InitiatorSeated t := by
    refine hs.congr (hterms.trans clone.terms) ?_ fun _ => ?_
    · rw [hholds, clone.joinHolds]
    · rw [hparticipants, clone.participants]
  cases h
  case planRepeated => exact hs
  case planStarted next _ _ _ _ _ _ _ _ clone =>
    refine hs.congr clone.terms (by rw [← clone.joinHolds]) fun _ => ?_
    exact get_of_principals hs.role clone.buyer clone.seller
  case fundingTerms next _ _ _ _ _ _ clone =>
    refine hs.congr clone.terms (by rw [← clone.joinHolds]) fun _ => ?_
    exact get_of_principals hs.role clone.buyer clone.seller
  case orderJoined next _ _ _ role _ clone =>
    refine hs.congr clone.terms ?_ fun _ => by rw [← clone.participants]
    rw [← clone.joinHolds]
    exact PerRole.get_set_of_ne _ _ role.symm
  case seatJoined next _ _ _ role _ _ _ clone =>
    refine hs.congr clone.terms ?_ fun _ => ?_
    · rw [← clone.joinHolds]
      exact PerRole.get_set_of_ne _ _ role.symm
    · rw [← clone.participants]
      exact PerRole.get_set_of_ne _ _ role.symm
  case locked p next role withheld amount entries shares _ _ _ _ _ seats _ _ _ _ _ _ clone =>
    refine hs.congr clone.terms (by rw [← clone.joinHolds]; rfl) fun hchild => ?_
    -- A LOCK names the buyer who joined, and the initiator's seat cannot have lapsed.
    cases hrole : s.initiator.role with
    | arbiter => exact absurd hrole hs.role
    | seller => exact clone.seller
    | buyer =>
      have hseat := hs.seat hchild
      have hhold := hs.hold
      rw [hrole] at hseat hhold
      have := (lockSeatsGate_eq_ok seats).buyer _ (joinedAtLock_of_no_hold hseat hs.key hhold)
      rw [hseat, this]
      rfl
  case voted clone count =>
    obtain ⟨votes, acting, rfl⟩ := countVote_eq_ok count
    exact kept clone rfl rfl rfl
  case stalled clone => exact kept clone rfl rfl rfl
  all_goals
    rename_i clone
    exact kept clone rfl rfl rfl

theorem Stepped.initiatorSeated (h : Stepped host s e s') (hs : InitiatorSeated s) :
    InitiatorSeated s' := by
  have kept {next t : EscrowState} (clone : IsCopy s next)
      (hterms : t.toTradeTerms = next.toTradeTerms) (hholds : t.joinHolds = next.joinHolds)
      (hparticipants : t.participants = next.participants) : InitiatorSeated t := by
    refine hs.congr (hterms.trans clone.terms) ?_ fun _ => ?_
    · rw [hholds, clone.joinHolds]
    · rw [hparticipants, clone.participants]
  cases h with
  | echoed => exact hs
  | premium _ _ clone => exact kept clone rfl rfl rfl
  | settlement _ _ clone => exact kept clone rfl rfl rfl
  | expired _ expires =>
    obtain ⟨copy, clone, rfl⟩ := expires.eq
    exact kept clone rfl rfl rfl
  | handled _ _ _ _ handled => exact handled.initiatorSeated hs
  | lateHandled _ _ expires handled =>
    refine handled.initiatorSeated ?_
    obtain ⟨copy, clone, rfl⟩ := expires.eq
    exact kept clone rfl rfl rfl

theorem Reached.initiatorSeated (h : Reached host s) : InitiatorSeated s := by
  refine Reachable.invariant (fun s hs => ?_) (fun s e s' hs h => ?_) h
  · obtain ⟨e, p, hborn⟩ := hs.newborn
    exact hborn.initiatorSeated
  · exact (applyToState_stepped h).initiatorSeated hs

/-! ### The funder's seat -/

def FunderSeated (s : EscrowState) : Prop :=
  ∀ withheld, s.lock.withheld = some withheld →
    ∃ role, s.participants.get role = some withheld.lockerPubkey

theorem getEffectiveParticipantAt_grace {time : JsNumber}
    (h : getEffectiveParticipantAt s role time = some pubkey) :
    getEffectiveParticipantAt s role time joinHoldLockGraceSeconds = some pubkey := by
  unfold getEffectiveParticipantAt at h ⊢
  cases hseat : truthyKey (s.participants.get role) with
  | none => simp [hseat] at h
  | some pk =>
    rw [hseat] at h
    dsimp only at h ⊢
    split_ifs at h ⊢
    · exact h
    · exact h
    · cases hhold : s.joinHolds.get role with
      | none => simpa [hhold] using h
      | some hold =>
        rw [hhold] at h
        dsimp only at h ⊢
        split_ifs at h ⊢ with howner hgrace
        · exact h
        · exact h
        · rename_i hlive
          refine absurd ?_ hgrace
          exact JsNumber.lt_add_mono (m := 0) (n := 120) (by norm_num [JsNumber.maxExact])
            (by norm_num) hlive

theorem withheldGate_eq_ok {p : LockPayload} {withheld : Withheld}
    (h : withheldGate s e p role = .ok (some withheld)) :
    withheld.lockerPubkey = e.pubkey ∧ p.onchain = none ∧ role.isPrincipal = true := by
  unfold withheldGate at h
  split_ifs at h
  · cases h
  · simp only [bind_eq_ok, guardErr_eq_ok, js_eq_ok, pure_eq_ok, Option.some.injEq] at h
    obtain ⟨-, hrules, entries, -, commitments, -, -, -, rfl⟩ := h
    simp only [not_or, Option.not_isSome_iff_eq_none] at hrules
    exact ⟨rfl, hrules.2.1, by simpa using hrules.2.2.2.2⟩

theorem withheldGate_seat {p : LockPayload} {withheld : Withheld}
    (hlocker : lockerGate s e p = .ok role) (hseats : LockSeats s e p)
    (h : withheldGate s e p role = .ok (some withheld)) :
    PerRole.get { s.participants with buyer := some p.buyerPubkey, arbiter := some p.arbiterPubkey }
      role = some withheld.lockerPubkey := by
  obtain ⟨hauthor, honchain, hprincipal⟩ := withheldGate_eq_ok h
  rw [hauthor]
  obtain ⟨hseat, -⟩ := lockerGate_eq_ok hlocker
  cases role with
  | arbiter => cases hprincipal
  | seller => exact hseat
  | buyer =>
    have hactive : getEffectiveParticipantAt s .buyer e.timestamp = some e.pubkey := by
      unfold lockerGate at hlocker
      rw [honchain] at hlocker
      simp only [Option.isSome_none] at hlocker
      split at hlocker
      · cases hlocker
      · rename_i role hrole
        simp only [bind_eq_ok, guardNone_eq_ok, pure_eq_ok] at hlocker
        obtain ⟨-, -, rfl⟩ := hlocker
        exact getActiveRole_eq_some (by simpa using hrole)
    have hjoined : joinedAtLock s e .buyer = some e.pubkey := by
      unfold joinedAtLock
      split_ifs
      · exact getEffectiveParticipantAt_eq_some hactive
      · exact getEffectiveParticipantAt_grace hactive
    exact congrArg some (hseats.buyer _ hjoined).symm

theorem Handled.funderSeated_of_lock (h : Handled host s e s') (hkind : e.kind = .lock)
    (hlock : s.lock = {}) : FunderSeated s' := by
  cases h
  case locked p next role held amount entries shares payload _ _ _ locker seats _ withhold _ _ _ _
      clone =>
    intro withheld hwithheld
    have hheld : held = some withheld := by
      have : next.lock.withheld = none := by rw [clone.lock, hlock]
      simpa [lockedState, lockDetails, this] using hwithheld
    subst hheld
    refine ⟨role, ?_⟩
    rw [← withheldGate_seat locker (lockSeatsGate_eq_ok seats) withhold]
    exact congrArg (PerRole.get · role) (congrArg (fun q : PerRole (Option String) =>
      { q with buyer := some p.buyerPubkey, arbiter := some p.arbiterPubkey }) clone.participants)
  all_goals simp_all [ParsedEscrowEvent.kind, EscrowPayload.kind]

theorem FunderSeated.step (hs : FunderSeated s) (hfunded : Funded s) (h : Stepped host s e s') :
    FunderSeated s' := by
  have hseats := hfunded.seats.step hfunded.not_open h
  intro withheld hwithheld
  rw [hseats]
  cases h.pastOpen hfunded.not_open with
  | keeps h => exact hs withheld (h.withheld ▸ hwithheld)
  | plan h => exact hs withheld (h.withheld ▸ hwithheld)
  | release h =>
    obtain ⟨p, before, -, -, hbefore, -, -, -, hafter⟩ := h.step
    rw [hafter, Option.some.injEq] at hwithheld
    subst hwithheld
    exact hs before hbefore

theorem Reached.funderSeated (h : Reached host s) : FunderSeated s := by
  refine Reached.of_lock (fun s hlock withheld hwithheld => ?_)
    (fun h hkind hlock => h.funderSeated_of_lock hkind hlock)
    (fun hstep hreached hlocked hs => hs.step (hreached.funded hlocked) hstep) h
  rw [hlock] at hwithheld
  cases hwithheld

/-! ### Outsiders -/

/-- A key without a place in the trade: no seat, and no place in the order of a pooled LOCK. -/
structure Outsider (s : EscrowState) (pubkey : String) : Prop where
  unseated : getRole s pubkey = none
  unpooled : ¬ (s.lock.arbiterPoolShare = some true ∧
    ∃ place, arbiterVotePriority s pubkey = .ok (some place))

/-- What an event leaves alone that moves nothing. -/
structure Unmoved (s s' : EscrowState) : Prop where
  status : s'.status = s.status
  votes : s'.votes = s.votes
  participants : s'.participants = s.participants
  lock : s'.lock = s.lock
  expiresAt : s'.expiresAt = s.expiresAt
  resolvedOutcome : s'.resolvedOutcome = s.resolvedOutcome
  resolvedAt : s'.resolvedAt = s.resolvedAt
  claim : s'.claim = s.claim
  completedAt : s'.completedAt = s.completedAt

theorem IsCopy.unmoved (clone : IsCopy s next) : Unmoved s next :=
  ⟨clone.status, clone.votes, clone.participants, clone.lock, clone.expiresAt,
    clone.resolvedOutcome, clone.resolvedAt, clone.claim, clone.completedAt⟩

/-- A RESOLVE of agreed votes that reaches its handler, or the COMPLETE of a claimed ecash trade:
the two events whose author nobody asks for. -/
inductive MovesUnasked (host : Host) (s : EscrowState) (e : ParsedEscrowEvent) : Prop
  | resolve (p : ResolvePayload) (payload : e.payload = .resolve p)
      (fresh : s.hasEvent e.id = false)
      (due : s.status = .locked ∧ isPastDeadline s e = false ∨ s.status = .expired)
      (law : outcomeLaw host s e = none) (agreed : resolveError s.votes p = none)
  | complete (p : CompletePayload) (payload : e.payload = .complete p)
      (fresh : s.hasEvent e.id = false) (status : s.status = .claimed)
      (ecash : s.lock.onchain = none) (linked : linkedRefund s e = none)

theorem Outsider.not_seated (h : Outsider s pubkey) (role : Role) :
    s.participants.get role ≠ some pubkey := by
  intro hseat
  have := List.find?_eq_none.mp h.unseated role (by cases role <;> simp [Role.all])
  simp [hseat] at this

theorem Outsider.not_fills (h : Outsider s pubkey) (role : Role) : ¬ Fills s role pubkey := by
  rintro (hseat | ⟨-, hpooled⟩)
  · exact h.not_seated role hseat
  · exact h.unpooled hpooled

theorem Outsider.not_expires (hout : Outsider s e.pubkey)
    (hopen : s.status ≠ .created) (hdated : usesDecemberTradeRules s.createdAt = true)
    (h : Expires s e next) : False := by
  have hlocked := h.status.resolve_left hopen
  have hcarry := h.placed (by simp [asksForAPlace, hlocked, hdated])
  unfold mayCarryPastExpiry at hcarry
  rw [hout.unseated] at hcarry
  simp only [Option.isSome_none, Bool.false_eq_true, if_false] at hcarry
  split_ifs at hcarry with hpooled
  · simp only [bind_eq_ok, pure_eq_ok] at hcarry
    obtain ⟨place, hplace, hsome⟩ := hcarry
    obtain ⟨n, rfl⟩ := Option.isSome_iff_exists.mp hsome
    exact hout.unpooled ⟨hpooled, n, hplace⟩
  · cases hcarry

theorem payoutProofFor_seated {terms : OnchainLockTerms} {proof : SettlementProof}
    (h : payoutProofFor host s e terms = some proof) :
    ∃ role, s.participants.get role = some e.pubkey := by
  unfold payoutProofFor at h
  split at h
  · rename_i message winner winnerRole _ _
    split_ifs at h
    · rw [Option.filter_eq_some_iff] at h
      simp only [Bool.or_eq_true, decide_eq_true_eq] at h
      rcases h.2 with h | h
      · exact ⟨winnerRole, h.symm⟩
      · exact ⟨.arbiter, h.symm⟩
    · rw [Option.filter_eq_some_iff] at h
      simp only [isPrincipalKey, Bool.or_eq_true, decide_eq_true_eq] at h
      rcases h.2 with h | h
      · exact ⟨.buyer, h.symm⟩
      · exact ⟨.seller, h.symm⟩
  · cases h

theorem lockCounterparty_seated {locker pubkey : String}
    (h : truthyKey (lockCounterparty s locker) = some pubkey) :
    ∃ role, s.participants.get role = some pubkey := by
  have hparty := (truthyKey_eq_some h).1
  unfold lockCounterparty at hparty
  split_ifs at hparty
  · exact ⟨.seller, hparty⟩
  · exact ⟨.buyer, hparty⟩

/-- What a handler does with the event of an outsider, one constructor at a time: its author rule
refuses it, or it writes nothing that moves the trade, or its author is not asked for. -/
theorem Handled.unmoved (h : Handled host s e s') (hout : Outsider s e.pubkey)
    (hs : Reached host s) (hlock : s.hasLock = true) (hfresh : s.hasEvent e.id = false)
    (hdue : isPastDeadline s e = false ∨ s.status = .expired)
    (hlaw : outcomeLaw host s e = none) : Unmoved s s' ∨ MovesUnasked host s e := by
  have hopen := (hs.funded hlock).not_open
  have kept {next t : EscrowState} (clone : IsCopy s next) (ht : Unmoved next t) : Unmoved s t :=
    ⟨ht.status.trans clone.status, ht.votes.trans clone.votes,
      ht.participants.trans clone.participants, ht.lock.trans clone.lock,
      ht.expiresAt.trans clone.expiresAt, ht.resolvedOutcome.trans clone.resolvedOutcome,
      ht.resolvedAt.trans clone.resolvedAt, ht.claim.trans clone.claim,
      ht.completedAt.trans clone.completedAt⟩
  have unseated {role : Role} (hseat : s.participants.get role = some e.pubkey) : False :=
    hout.not_seated role hseat
  cases h
  case planRepeated => exact Or.inl ⟨rfl, rfl, rfl, rfl, rfl, rfl, rfl, rfl, rfl⟩
  case planStarted parent _ _ author _ _ _ _ =>
    exact (unseated (author ▸ hs.initiatorSeated.seat parent.2)).elim
  case childKey seat _ => exact (unseated seat).elim
  case fundingTerms status _ _ _ _ _ => exact absurd status hopen
  case orderJoined status _ _ _ _ => exact absurd status hopen
  case seatJoined status _ _ _ _ _ _ => exact absurd status hopen
  case subscribed status _ _ _ _ => exact absurd status hopen
  case cancelled status _ _ => exact absurd status hopen
  case locked status _ _ _ _ _ _ _ _ _ => exact absurd status hopen
  case lockAccepted counterparty _ _ =>
    obtain ⟨role, hseat⟩ := lockCounterparty_seated counterparty
    exact (unseated hseat).elim
  case sharesReleased withheld _ _ _ _ _ held author _ _ _ _ =>
    obtain ⟨role, hseat⟩ := hs.funderSeated withheld held
    exact (unseated (author ▸ hseat)).elim
  case voted role _ _ _ => exact (hout.not_fills _ (voterRole_fills role)).elim
  case resolved p _ payload _ status votes _ =>
    refine Or.inr (.resolve p payload hfresh ?_ hlaw votes)
    rcases status with h | h
    · exact Or.inl ⟨h, by simpa [h] using hdue⟩
    · exact Or.inr h
  case claimed author _ => exact (unseated (getRole_eq_some author)).elim
  case stalled clone => exact Or.inl (kept clone ⟨rfl, rfl, rfl, rfl, rfl, rfl, rfl, rfl, rfl⟩)
  case refundClaimed clone =>
    exact Or.inl (kept clone ⟨rfl, rfl, rfl, rfl, rfl, rfl, rfl, rfl, rfl⟩)
  case completed p proof next payload linked status proved present clone =>
    cases honchain : s.lock.onchain with
    | none =>
      rw [honchain] at status
      exact Or.inr (.complete p payload hfresh (by simpa using status) honchain linked)
    | some terms =>
      rw [honchain] at proved present
      obtain ⟨found, hfound⟩ := Option.isSome_iff_exists.mp (present rfl)
      obtain ⟨role, hseat⟩ := payoutProofFor_seated (proved ▸ hfound)
      exact (unseated hseat).elim
  case periodReleased seated _ =>
    rw [hout.unseated] at seated
    cases seated
  case chatted clone => exact Or.inl (kept clone ⟨rfl, rfl, rfl, rfl, rfl, rfl, rfl, rfl, rfl⟩)

theorem Stepped.unmoved (h : Stepped host s e s') (hout : Outsider s e.pubkey)
    (hs : Reached host s) (hdated : usesDecemberTradeRules s.createdAt = true)
    (hlock : s.hasLock = true) : Unmoved s s' ∨ MovesUnasked host s e := by
  have hopen := (hs.funded hlock).not_open
  cases h with
  | echoed => exact Or.inl ⟨rfl, rfl, rfl, rfl, rfl, rfl, rfl, rfl, rfl⟩
  | premium _ _ clone =>
    have := clone.unmoved
    exact Or.inl ⟨this.status, this.votes, this.participants, this.lock, this.expiresAt,
      this.resolvedOutcome, this.resolvedAt, this.claim, this.completedAt⟩
  | settlement _ _ clone =>
    have := clone.unmoved
    exact Or.inl ⟨this.status, this.votes, this.participants, this.lock, this.expiresAt,
      this.resolvedOutcome, this.resolvedAt, this.claim, this.completedAt⟩
  | expired _ expires => exact (hout.not_expires hopen hdated expires).elim
  | handled fresh _ due law handled => exact handled.unmoved hout hs hlock fresh due law
  | lateHandled _ _ expires => exact (hout.not_expires hopen hdated expires).elim

theorem MovesUnasked.moves (h : MovesUnasked host s e) (hclone : Clonable s) :
    ∃ s', applyToState host s e = .ok s' ∧ s'.status ≠ s.status := by
  obtain ⟨next, hnext⟩ := hclone.cloneState
  cases h with
  | resolve p payload fresh due law agreed =>
    have hstatus : s.status = .locked ∨ s.status = .expired := due.imp And.left id
    have hlaw := law
    unfold outcomeLaw at hlaw
    rw [payload] at hlaw
    dsimp only at hlaw
    obtain ⟨s', hhandle, hmoved⟩ : ∃ s', handleResolve host s e p = .ok s' ∧
        s'.status = .approved := by
      simp only [handleResolve, bind_eq_ok, guardErr_eq_ok, guardNone_eq_ok, guardProblem_eq_ok,
        js_eq_ok, pure_eq_ok]
      exact ⟨_, ⟨(), hlaw, (), by tauto, (), agreed, next, hnext, rfl⟩, rfl⟩
    refine ⟨s', ?_, ?_⟩
    · rw [applyToState_dispatch (by rw [payload]; rfl) law
        fresh (by rcases hstatus with h | h <;> rw [h] <;> rfl) (due.imp And.right id), dispatch,
        payload]
      exact hhandle
    · rw [hmoved]
      rcases hstatus with h | h <;> rw [h] <;> simp
  | complete p payload fresh status ecash linked =>
    have hdue : isPastDeadline s e = false := by simp [isPastDeadline, status]
    obtain ⟨s', hhandle, hmoved⟩ : ∃ s', handleComplete host s e p = .ok s' ∧
        s'.status = .completed := by
      simp only [handleComplete, linked, completeTrade, bind_eq_ok, guardErr_eq_ok, js_eq_ok,
        pure_eq_ok, ecash]
      exact ⟨_, ⟨(), by simp [status], (), by simp, next, hnext, rfl⟩, rfl⟩
    refine ⟨s', ?_, ?_⟩
    · rw [applyToState_dispatch (by rw [payload]; rfl)
        (by rw [outcomeLaw, payload]) fresh (by rw [status]; rfl) (Or.inl hdue), dispatch, payload]
      exact hhandle
    · rw [hmoved, status]
      simp

/-- On a funded trade under the December rules, the event of an outsider is refused or moves nothing
exactly when it is neither a RESOLVE of agreed votes that reaches its handler nor the COMPLETE of a
claimed ecash trade. -/
theorem outsider_moves_iff (host : Host) (s : EscrowState) (hs : Reached host s)
    (hdated : usesDecemberTradeRules s.createdAt = true)
    (hlock : ∃ v ∈ s.eventChain, v.kind = .lock) (e : ParsedEscrowEvent)
    (hout : Outsider s e.pubkey) :
    (∀ s', applyToState host s e = .ok s' → Unmoved s s') ↔ ¬ MovesUnasked host s e := by
  have hlock := hasLock_iff.mpr hlock
  constructor
  · intro hall hmoves
    obtain ⟨s', hstep, hstatus⟩ := hmoves.moves (hs.clonable hlock)
    exact hstatus (hall s' hstep).status
  · intro hnot s' hstep
    exact ((applyToState_stepped hstep).unmoved hout hs hdated hlock).resolve_right hnot

/-- A RESOLVE of the sample trade's votes, signed by the stranger `0`. -/
def strangerResolve : ParsedEscrowEvent := sampleEvent '7' '0' 1800000050 (.resolve {
  outcome := .release
  majority := [some .buyer, some .seller]
  resolvedAt := 1800000050 })

/-- The stranger's RESOLVE settles the funded sample trade. -/
theorem stranger_resolves :
    ∃ s s', liveTrade silentHost sampleCreate fundedEvents = some s ∧ Reached silentHost s ∧
      usesDecemberTradeRules s.createdAt = true ∧ (∃ v ∈ s.eventChain, v.kind = .lock) ∧
      Outsider s strangerResolve.pubkey ∧ applyToState silentHost s strangerResolve = .ok s' ∧
      ¬ Unmoved s s' := by
  have hrun : (liveTrade silentHost sampleCreate fundedEvents).any (fun s =>
      s.status = .locked && s.hasLock && usesDecemberTradeRules s.createdAt &&
        (getRole s strangerResolve.pubkey = none && s.lock.arbiterPoolShare = none) &&
        (applyToState silentHost s strangerResolve).toOption.any fun s' =>
          s'.status = .approved) = true := by
    decide +kernel
  obtain ⟨s, hs, h⟩ := (Option.any_eq_true _ _).mp hrun
  simp only [Bool.and_eq_true, decide_eq_true_eq] at h
  obtain ⟨⟨⟨⟨hlocked, hlock⟩, hdated⟩, hseat, hpool⟩, h⟩ := h
  obtain ⟨s', hstep, h⟩ := exists_ok_of_any h
  rw [decide_eq_true_eq] at h
  refine ⟨s, s', hs, liveTrade_reached silentHost hs, hdated, hasLock_iff.mp hlock,
    ⟨hseat, fun h => ?_⟩, hstep, fun hsame => ?_⟩
  · simp [hpool] at h
  · have := hsame.status
    rw [h, hlocked] at this
    cases this
/-- A stranger's vote leaves the funded sample trade alone. -/
theorem outsider_moves_iff_sample :
    ∃ s : EscrowState, s.status = .locked ∧ ∀ s',
      applyToState silentHost s (sampleVote '7' '0' 1800000050 .buyer .refund) = .ok s' →
        Unmoved s s' := by
  have hrun : (liveTrade silentHost sampleCreate fundedEvents).any (fun s =>
      s.status = .locked && s.hasLock && usesDecemberTradeRules s.createdAt &&
        (getRole s (hexKey '0') = none && s.lock.arbiterPoolShare = none)) = true := by
    decide +kernel
  obtain ⟨s, hs, h⟩ := (Option.any_eq_true _ _).mp hrun
  simp only [Bool.and_eq_true, decide_eq_true_eq] at h
  obtain ⟨⟨⟨hlocked, hlock⟩, hdated⟩, hseat, hpool⟩ := h
  have hout : Outsider s (sampleVote '7' '0' 1800000050 .buyer .refund).pubkey := by
    refine ⟨hseat, fun h => ?_⟩
    simp [hpool] at h
  refine ⟨s, hlocked, (outsider_moves_iff silentHost s (liveTrade_reached silentHost hs) hdated
    (hasLock_iff.mp hlock) _ hout).mpr fun h => ?_⟩
  cases h with
  | resolve _ payload => cases payload
  | complete _ payload => cases payload

end ChamaEscrow
