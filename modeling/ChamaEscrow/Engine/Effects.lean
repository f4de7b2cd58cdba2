import ChamaEscrow.Engine.StateMachine

/-!
# What a step can do

The inversion of the reducer: `Handled` lists what a handler does to the state it is dispatched on,
one constructor for each way of accepting an event, with the guards that were passed and the record
that was written.  `Stepped` adds what `applyToState` does around the dispatch.

`dispatch_handled` and `applyToState_stepped` say that nothing else happens; every invariant of the
trade is a case analysis over these two.
-/

namespace ChamaEscrow

open Js Library

/-! ### Handlers -/

inductive Handled (host : Host) (s : EscrowState) (e : ParsedEscrowEvent) : EscrowState → Prop
  | planRepeated {p : PlanStartPayload} {plan : TranchePlan} (payload : e.payload = .planStart p)
      (known : s.tranchePlan = some plan) (same : plan.eventId = e.id) : Handled host s e s
  | planStarted {p : PlanStartPayload} {next : EscrowState} (payload : e.payload = .planStart p)
      (parent : s.chamaCircle = none ∧ s.trancheChild = none) (fresh : s.tranchePlan = none)
      (valid : validatePlanStart p = none) (author : e.pubkey = s.initiator.pubkey)
      (buyer : s.participants.buyer = some p.buyerPubkey)
      (seller : s.participants.seller = some p.sellerPubkey)
      (arbiter : planArbiterGate s e p = .ok ())
      (clone : IsCopy s next) :
      Handled host s e { next with
        participants := { next.participants with arbiter := some p.arbiterPubkey }
        tranchePlan := some { p with eventId := e.id }
        expiresAt := neverExpires
        eventChain := next.push e }
  | childKey {p : ChildKeyPayload} {next : EscrowState} (payload : e.payload = .childKey p)
      (seat : s.participants.get p.role = some e.pubkey) (clone : IsCopy s next) :
      Handled host s e { next with
        childKeys := next.childKeys.set p.role (some p.xOnlyPubkey)
        eventChain := next.push e }
  | fundingTerms {p : JoinPayload} {terms : OnchainFundingTerms} {arbiter : Option String}
      {next : EscrowState} (payload : e.payload = .join p) (status : s.status = .created)
      (fresh : s.onchainFundingTerms = none)
      (valid : fundingTermsError host s terms e.timestamp = none)
      (funder : getEffectiveParticipantAt s (onchainFunder s) e.timestamp = some e.pubkey)
      (pick : fundingArbiter s = .ok arbiter) (clone : IsCopy s next) :
      Handled host s e { next with
        onchainFundingTerms := some terms
        participants := { next.participants with arbiter }
        tradeTimeoutSeconds := some (tradeTimeoutSecondsFor s)
        listingExpiresAt := some (s.listingExpiresAt.getD s.expiresAt)
        expiresAt := neverExpires
        eventChain := next.push e }
  | orderJoined {p : JoinPayload} {next : EscrowState} (payload : e.payload = .join p)
      (status : s.status = .created) (fresh : s.onchainFundingTerms = none)
      (role : p.role ≠ s.initiator.role)
      (occupant : getEffectiveParticipantAt s p.role e.timestamp = some e.pubkey)
      (clone : IsCopy s next) :
      Handled host s e { next with
        joinHolds := next.joinHolds.set p.role
          (some (joinHold s e p (next.joinHolds.get p.role)))
        eventChain := next.push e }
  | seatJoined {p : JoinPayload} {next : EscrowState} (payload : e.payload = .join p)
      (status : s.status = .created) (fresh : s.onchainFundingTerms = none)
      (role : p.role ≠ s.initiator.role)
      (free : getEffectiveParticipantAt s p.role e.timestamp = none)
      (elsewhere : getActiveRole s e.pubkey e.timestamp = none)
      (gate : joinRoleGate s e p = .ok ()) (clone : IsCopy s next) :
      Handled host s e { next with
        participants := next.participants.set p.role (some e.pubkey)
        escrowKeys := next.escrowKeys.set p.role ((truthyKey p.escrowXonly).map toLowerCase)
        joinHolds := next.joinHolds.set p.role
          (if roleUsesJoinHold p.role s.initiator.role then some (joinHold s e p none) else none)
        fees :=
          if p.role = .arbiter ∧ !p.arbiterFeeMsats.isUndefined then
            { next.fees with
              arbiterMsats := sanitizeArbiterFeeMsats p.arbiterFeeMsats s.amountMsats }
          else next.fees
        eventChain := next.push e }
  | subscribed {p : SubscribePayload} {next : EscrowState} {periods : ℕ}
      (payload : e.payload = .subscribe p) (status : s.status = .created)
      (seated : (getRole s e.pubkey).isSome) (fresh : s.subscription = none)
      (length : arrayLength p.totalPeriods = .ok periods) (clone : IsCopy s next) :
      Handled host s e { next with
        subscription := some {
          totalPeriods := p.totalPeriods
          periodAmountMsats := p.periodAmountMsats
          periodDurationSeconds := p.periodDurationSeconds
          periodStartTimes := (List.range periods).map fun i =>
            p.startsAt + .ofInt i * p.periodDurationSeconds
          periodStatuses := ⟨List.replicate periods .pending, []⟩
          releasedCount := 0
          totalReleasedMsats := 0
          startsAt := p.startsAt }
        eventChain := next.push e }
  | cancelled {p : CancelPayload} {next : EscrowState} (payload : e.payload = .cancel p)
      (unfunded : s.onchainFundingTerms = none) (status : s.status = .created)
      (author : e.pubkey = s.initiator.pubkey) (clone : IsCopy s next) :
      Handled host s e { next with
        status := .cancelled
        cancelledAt := some p.cancelledAt
        eventChain := next.push e }
  | locked {p : LockPayload} {next : EscrowState} {role : Role} {withheld : Option Withheld}
      {amount : JsNumber} {entries : List JsValue} {shares : OrderedMap String JsValue}
      (payload : e.payload = .lock p)
      (notCircle : s.category ≠ "chama") (chama : chamaLockGate s e p = .ok ())
      (status : s.status = .created) (locker : lockerGate s e p = .ok role)
      (seats : lockSeatsGate s e p = .ok ()) (rail : lockRailGate host s e p = .ok ())
      (withhold : withheldGate s e p role = .ok withheld)
      (order : lockOrderGate s e p = .ok amount) (amounts : lockAmountGate e p amount = .ok ())
      (spread : (p.shares.orElse (.arr [])).spread = .ok entries)
      (filed : collectShares entries next.lock.shares = .ok shares) (clone : IsCopy s next) :
      Handled host s e (lockedState s next e p amount shares withheld)
  | lockAccepted {p : LockStepPayload} {lock : ParsedEscrowEvent} {next : EscrowState}
      (payload : e.payload = .lockStep p) (step : p.step = .accept)
      (status : s.status = .locked ∨ s.status = .expired) (found : s.lockEvent? = some lock)
      (counterparty : truthyKey (lockCounterparty s lock.pubkey) = some e.pubkey)
      (fresh : truthyKey s.lock.acceptEventId = none) (clone : IsCopy s next) :
      Handled host s e { next with lock := { next.lock with
        acceptedBy := some e.pubkey
        acceptEventId := some e.id } }
  | sharesReleased {p : LockStepPayload} {lock : ParsedEscrowEvent} {withheld : Withheld}
      {next : EscrowState} (payload : e.payload = .lockStep p) (step : p.step = .release)
      (status : s.status = .locked ∨ s.status = .expired) (found : s.lockEvent? = some lock)
      (held : s.lock.withheld = some withheld) (author : e.pubkey = withheld.lockerPubkey)
      (fresh : truthyKey withheld.releaseEventId = none)
      (complete : releasesWithheld withheld p.shares = true)
      (routed : releasedSharesError s p.shares = .ok none) (clone : IsCopy s next) :
      Handled host s e { next with lock := { next.lock with
        shares := storeReleased next.lock.shares p.shares
        withheld := some { withheld with releaseEventId := some e.id } } }
  | voted {p : VotePayload} {next s' : EscrowState} (payload : e.payload = .vote p)
      (status : s.status = .locked ∨ s.status = .expired) (role : voterRole s e p = .ok p.role)
      (fresh : ∀ v ∈ s.eventChain, v.kind = .vote → v.pubkey ≠ e.pubkey)
      (clone : IsCopy s next)
      (count : countVote s (recordVote next e p) e p p.role = .ok s') : Handled host s e s'
  | resolved {p : ResolvePayload} {next : EscrowState} (payload : e.payload = .resolve p)
      (law : outcomeLaw host s e = none) (status : s.status = .locked ∨ s.status = .expired)
      (votes : resolveError s.votes p = none) (clone : IsCopy s next) :
      Handled host s e { next with
        status := .approved
        resolvedOutcome := some p.outcome
        resolvedMajority := some (p.majority.filterMap id)
        resolvedAt := some p.resolvedAt
        eventChain := next.push e }
  | claimed {p : ClaimPayload} {outcome : Outcome} {winner : String} {winnerRole : Role}
      {next : EscrowState} (payload : e.payload = .claim p) (status : s.status = .approved)
      (outcomeSet : s.resolvedOutcome = some outcome)
      (payee : payoutRecipientFor s outcome = some (winner, winnerRole))
      (author : getRole s e.pubkey = some winnerRole) (clone : IsCopy s next) :
      Handled host s e { next with
        status := .claimed
        claim := ⟨getRole s e.pubkey, some p.claimedAt⟩
        eventChain := next.push e }
  | stalled {p : SettlementStalledPayload} {eligible : StalledEligibility} {next : EscrowState}
      (payload : e.payload = .settlementStalled p)
      (eligibility : stalledPayoutEligibility host s e.timestamp = .ok (some eligible))
      (author : e.pubkey = eligible.winner) (clone : IsCopy s next) :
      Handled host s e { recordStalled next e p eligible.choice.destination with
        eventChain := (recordStalled next e p eligible.choice.destination).push e }
  | refundClaimed {p : CompletePayload} {refund : SettlementMessage} {terms : OnchainFundingTerms}
      {next : EscrowState} (payload : e.payload = .complete p)
      (linked : linkedRefund s e = some refund) (frozen : s.onchainFundingTerms = some terms)
      (author : some e.pubkey = s.participants.get (onchainFunder s))
      (clone : IsCopy s next) :
      Handled host s e { next with
        onchainRefundClaimed := true
        eventChain := next.push e }
  | completed {p : CompletePayload} {proof : Option SettlementProof} {next : EscrowState}
      (payload : e.payload = .complete p) (linked : linkedRefund s e = none)
      (status : s.status = .claimed ∨ (s.status = .approved ∧ s.lock.onchain.isSome))
      (proved : proof = s.lock.onchain.bind (payoutProofFor host s e))
      (present : s.lock.onchain.isSome → proof.isSome)
      (clone : IsCopy s next) :
      Handled host s e { next with
        status := .completed
        completedAt := some p.completedAt
        onchainPayoutTxid := (proof.map SettlementProof.txid).or next.onchainPayoutTxid
        onchainPayoutAddress :=
          (proof.map SettlementProof.destination).or next.onchainPayoutAddress
        onchainPayoutSats := (proof.map SettlementProof.sats).or next.onchainPayoutSats
        eventChain := next.push e }
  | periodReleased {p : PeriodReleasePayload} {sub : SubscriptionMeta} {next : EscrowState}
      (payload : e.payload = .periodRelease p) (status : s.status = .locked)
      (subscribed : s.subscription = some sub) (valid : periodError sub p = none)
      (seated : (getRole s e.pubkey).isSome) (clone : IsCopy s next) :
      Handled host s e { next with
        subscription := some (sub.copy.release p)
        status :=
          if sub.totalPeriods ≤ .ofInt (sub.copy.release p).releasedCount then .completed
          else next.status
        completedAt :=
          if sub.totalPeriods ≤ .ofInt (sub.copy.release p).releasedCount then some p.releasedAt
          else next.completedAt
        eventChain := next.push e }
  | chatted {p : ChatPayload} {next : EscrowState} (payload : e.payload = .chat p)
      (seated : (getActiveRole s e.pubkey e.timestamp).isSome)
      (opened : s.status.isTerminal = false) (clone : IsCopy s next) :
      Handled host s e { next with chatMessages := next.chatMessages ++ [e] }

variable {host : Host} {s s' : EscrowState} {e : ParsedEscrowEvent}

variable {next : EscrowState}

theorem countVote_eq_ok {p : VotePayload} {role : Role} (h : countVote s next e p role = .ok s') :
    ∃ votes acting, s' = { next with votes := votes, actingArbiter := acting } := by
  unfold countVote at h
  by_cases hpooled : role = .arbiter ∧ s.lock.arbiterPoolShare = some true
  · rw [if_pos hpooled] at h
    simp only [bind_eq_ok] at h
    obtain ⟨best, -, h⟩ := h
    split at h
    · exact ⟨_, _, (pure_eq_ok.mp h).symm⟩
    · exact ⟨_, _, (pure_eq_ok.mp h).symm⟩
  · rw [if_neg hpooled] at h
    exact ⟨_, _, (pure_eq_ok.mp h).symm⟩

theorem handlePlanStart_handled {p : PlanStartPayload} (hp : e.payload = .planStart p)
    (h : handlePlanStart s e p = .ok s') : Handled host s e s' := by
  simp only [handlePlanStart, bind_eq_ok, guardErr_eq_ok] at h
  obtain ⟨-, hparent, h⟩ := h
  split at h
  case h_1 hnone =>
    simp only [startPlan, bind_eq_ok, guardErr_eq_ok, guardNone_eq_ok, js_eq_ok, pure_eq_ok] at h
    obtain ⟨-, hvalid, -, hauthor, -, hseats, _, harbiter, -, -, -, -, next, hnext, rfl⟩ := h
    simp only [ne_eq, not_or, not_not, Option.not_isSome_iff_eq_none] at hparent hauthor hseats
    exact .planStarted hp ⟨hparent.1, hparent.2.1⟩ hnone hvalid hauthor.1 hseats.1 hseats.2 harbiter
      (cloneState_isCopy hnext)
  case h_2 plan hplan =>
    simp only [bind_eq_ok, guardErr_eq_ok, pure_eq_ok] at h
    obtain ⟨-, hsame, rfl⟩ := h
    exact .planRepeated hp hplan (by simpa using hsame)

theorem handleChildKey_handled {p : ChildKeyPayload} (hp : e.payload = .childKey p)
    (h : handleChildKey s e p = .ok s') : Handled host s e s' := by
  unfold handleChildKey at h
  split at h
  · cases h
  · simp only [bind_eq_ok, guardErr_eq_ok, js_eq_ok, pure_eq_ok] at h
    obtain ⟨-, -, -, -, -, hseat, -, -, next, hnext, rfl⟩ := h
    exact .childKey hp (by simpa using hseat) (cloneState_isCopy hnext)

theorem handleJoin_handled {p : JoinPayload} (hp : e.payload = .join p)
    (h : handleJoin host s e p = .ok s') : Handled host s e s' := by
  simp only [handleJoin, bind_eq_ok, guardErr_eq_ok] at h
  obtain ⟨-, -, -, hstatus, h⟩ := h
  replace hstatus : s.status = .created := by simpa using hstatus
  split at h
  case h_1 terms hterms =>
    simp only [joinFundingTerms, bind_eq_ok, guardErr_eq_ok, guardNone_eq_ok, js_eq_ok,
      pure_eq_ok] at h
    obtain ⟨-, hfresh, -, hfunder, -, hvalid, next, hnext, arbiter, harbiter, rfl⟩ := h
    simp only [ne_eq, not_or, not_not, Option.not_isSome_iff_eq_none] at hfresh hfunder
    exact .fundingTerms hp hstatus hfresh hvalid hfunder.2 harbiter (cloneState_isCopy hnext)
  case h_2 =>
    simp only [bind_eq_ok, guardErr_eq_ok] at h
    obtain ⟨-, hfresh, -, hrole, h⟩ := h
    rw [Option.not_isSome_iff_eq_none] at hfresh
    split_ifs at h with hocc
    · simp only [joinAgain, bind_eq_ok, guardErr_eq_ok, js_eq_ok, pure_eq_ok] at h
      obtain ⟨-, -, next, hnext, -, -, rfl⟩ := h
      exact .orderJoined hp hstatus hfresh hrole hocc (cloneState_isCopy hnext)
    · simp only [bind_eq_ok, guardErr_eq_ok, guardNone_eq_ok, joinSeat, js_eq_ok, pure_eq_ok] at h
      obtain ⟨-, hfree, -, helse, _, hgate, next, hnext, rfl⟩ := h
      rw [Option.not_isSome_iff_eq_none] at hfree
      exact .seatJoined hp hstatus hfresh hrole hfree (by simpa using helse) hgate
          (cloneState_isCopy hnext)

theorem handleSubscribe_handled {p : SubscribePayload} (hp : e.payload = .subscribe p)
    (h : handleSubscribe s e p = .ok s') : Handled host s e s' := by
  simp only [handleSubscribe, bind_eq_ok, guardErr_eq_ok, js_eq_ok, pure_eq_ok] at h
  obtain ⟨-, -, -, hstatus, -, hseated, -, hfresh, -, -, next, hnext, periods, hlen, rfl⟩ := h
  exact .subscribed hp (by simpa using hstatus) (by simpa [Option.isSome_iff_ne_none] using hseated)
    (by simpa using hfresh) hlen (cloneState_isCopy hnext)

theorem handleCancel_handled {p : CancelPayload} (hp : e.payload = .cancel p)
    (h : handleCancel s e p = .ok s') : Handled host s e s' := by
  simp only [handleCancel, bind_eq_ok, guardErr_eq_ok, js_eq_ok, pure_eq_ok] at h
  obtain ⟨-, hterms, -, hstatus, -, hauthor, next, hnext, rfl⟩ := h
  exact .cancelled hp (by simpa using hterms) (by simpa using hstatus) (by simpa using hauthor)
    (cloneState_isCopy hnext)

theorem handleLock_handled {p : LockPayload} (hp : e.payload = .lock p)
    (h : handleLock host s e p = .ok s') : Handled host s e s' := by
  simp only [handleLock, bind_eq_ok, guardErr_eq_ok, js_eq_ok, pure_eq_ok] at h
  obtain ⟨_, -, -, hcircle, _, hchama, -, hstatus, role, hlocker, _, hseats, _, hrail, withheld,
    hwithheld, amount, horder, _, hamounts, -, -, next, hnext, entries, hspread, shares, hfiled,
    rfl⟩ := h
  exact .locked hp hcircle hchama (by simpa using hstatus) hlocker hseats hrail hwithheld horder
    hamounts hspread hfiled (cloneState_isCopy hnext)

theorem handleLockStep_handled {p : LockStepPayload} (hp : e.payload = .lockStep p)
    (h : handleLockStep s e p = .ok s') : Handled host s e s' := by
  simp only [handleLockStep, bind_eq_ok, guardErr_eq_ok] at h
  obtain ⟨-, -, h⟩ := h
  split at h
  · cases h
  · rename_i lock hlock
    rw [Option.filter_eq_some_iff] at hlock
    obtain ⟨hfound, hok⟩ := hlock
    have hstatus : s.status = .locked ∨ s.status = .expired := by
      simp only [Bool.and_eq_true, Bool.or_eq_true, decide_eq_true_eq] at hok
      exact hok.2
    split at h
    case h_1 => cases h
    case h_2 hstep =>
      simp only [acceptLock, bind_eq_ok, guardErr_eq_ok, js_eq_ok, pure_eq_ok] at h
      obtain ⟨-, hparty, -, -, -, hfresh, next, hnext, rfl⟩ := h
      exact .lockAccepted hp hstep hstatus hfound (by simpa using hparty) (by simpa using hfresh)
          (cloneState_isCopy hnext)
    case h_3 hstep =>
      unfold releaseShares at h
      split at h
      · cases h
      · rename_i withheld hheld
        simp only [bind_eq_ok, guardErr_eq_ok, guardNone_eq_ok, js_eq_ok, pure_eq_ok] at h
        obtain ⟨-, hauthor, -, hfresh, -, -, -, hcomplete, problem, hrouted, -, rfl, next, hnext,
          rfl⟩ := h
        exact .sharesReleased hp hstep hstatus hfound hheld (by simpa using hauthor)
          (by simpa using hfresh) (by simpa using hcomplete) hrouted (cloneState_isCopy hnext)

theorem handleVote_handled {p : VotePayload} (hp : e.payload = .vote p)
    (h : handleVote host s e p = .ok s') : Handled host s e s' := by
  simp only [handleVote, bind_eq_ok, guardErr_eq_ok, guardNone_eq_ok, js_eq_ok] at h
  obtain ⟨-, -, -, -, -, -, -, hstatus, role, hrole, -, hsame, -, hfresh, -, -, -, -, next, hnext,
    hcount⟩ := h
  obtain rfl : role = p.role := not_not.mp hsame
  refine .voted hp (by tauto) hrole ?_ (cloneState_isCopy hnext) hcount
  simpa using hfresh

theorem handleResolve_handled {p : ResolvePayload} (hp : e.payload = .resolve p)
    (h : handleResolve host s e p = .ok s') : Handled host s e s' := by
  simp only [handleResolve, bind_eq_ok, guardErr_eq_ok, guardNone_eq_ok, guardProblem_eq_ok,
    js_eq_ok, pure_eq_ok] at h
  obtain ⟨-, hlaw, -, hstatus, -, hvotes, next, hnext, rfl⟩ := h
  refine .resolved hp ?_ (by tauto) hvotes (cloneState_isCopy hnext)
  unfold outcomeLaw
  rw [hp]
  exact hlaw

theorem handleClaim_handled {p : ClaimPayload} (hp : e.payload = .claim p)
    (h : handleClaim s e p = .ok s') : Handled host s e s' := by
  simp only [handleClaim, bind_eq_ok, guardErr_eq_ok] at h
  obtain ⟨-, hstatus, h⟩ := h
  split at h
  · cases h
  · cases h
  · rename_i outcome winner winnerRole houtcome hwinner
    simp only [bind_eq_ok, guardErr_eq_ok, js_eq_ok, pure_eq_ok] at h
    obtain ⟨-, hauthor, -, -, next, hnext, rfl⟩ := h
    have hpayee : payoutRecipientFor s outcome = some (winner, winnerRole) := by
      simpa [getWinner, houtcome] using hwinner
    exact .claimed hp (by simpa using hstatus) houtcome hpayee (by simpa using hauthor)
        (cloneState_isCopy hnext)

theorem handleSettlementStalled_handled {p : SettlementStalledPayload}
    (hp : e.payload = .settlementStalled p) (h : handleSettlementStalled host s e p = .ok s') :
    Handled host s e s' := by
  simp only [handleSettlementStalled, bind_eq_ok, guardErr_eq_ok, guardNone_eq_ok, js_eq_ok,
    pure_eq_ok] at h
  obtain ⟨eligible, heligible, -, hrequest, next, hnext, choice, -, -, -, rfl⟩ := h
  cases eligible with
  | none => simp [stalledRequestError] at hrequest
  | some eligible =>
    have hauthor : e.pubkey = eligible.winner := by
      simp only [stalledRequestError] at hrequest
      split_ifs at hrequest
      tauto
    exact .stalled hp heligible hauthor (cloneState_isCopy hnext)

theorem handleComplete_handled {p : CompletePayload} (hp : e.payload = .complete p)
    (h : handleComplete host s e p = .ok s') : Handled host s e s' := by
  unfold handleComplete at h
  split at h
  · rename_i refund hrefund
    simp only [claimRefund, bind_eq_ok, guardErr_eq_ok, js_eq_ok, pure_eq_ok] at h
    obtain ⟨-, hvalid, next, hnext, rfl⟩ := h
    simp only [Bool.not_eq_true', Bool.not_eq_false, Option.any_eq_true, Bool.and_eq_true,
      decide_eq_true_eq] at hvalid
    obtain ⟨terms, hterms, hauthor, -⟩ := hvalid
    exact .refundClaimed hp hrefund hterms hauthor (cloneState_isCopy hnext)
  · rename_i hnone
    simp only [completeTrade, bind_eq_ok, guardErr_eq_ok, js_eq_ok, pure_eq_ok] at h
    obtain ⟨-, hstatus, -, hproof, next, hnext, rfl⟩ := h
    refine .completed hp hnone (by tauto) rfl ?_ (cloneState_isCopy hnext)
    intro honchain
    simp only [honchain, true_and, Option.isNone_iff_eq_none] at hproof
    exact Option.isSome_iff_ne_none.mpr hproof

theorem handlePeriodRelease_handled {p : PeriodReleasePayload} (hp : e.payload = .periodRelease p)
    (h : handlePeriodRelease s e p = .ok s') : Handled host s e s' := by
  simp only [handlePeriodRelease, bind_eq_ok, guardErr_eq_ok] at h
  obtain ⟨-, hstatus, h⟩ := h
  split at h
  · cases h
  · rename_i sub hsub
    simp only [bind_eq_ok, guardErr_eq_ok, guardProblem_eq_ok, js_eq_ok, pure_eq_ok] at h
    obtain ⟨-, hvalid, -, hseated, -, -, next, hnext, rfl⟩ := h
    exact .periodReleased hp (by simpa using hstatus) hsub hvalid
      (by simpa [Option.isSome_iff_ne_none] using hseated) (cloneState_isCopy hnext)

theorem handleChat_handled {p : ChatPayload} (hp : e.payload = .chat p)
    (h : handleChat s e = .ok s') : Handled host s e s' := by
  simp only [handleChat, bind_eq_ok, guardErr_eq_ok, js_eq_ok, pure_eq_ok] at h
  obtain ⟨-, hseated, -, hopened, next, hnext, rfl⟩ := h
  exact .chatted hp (by simpa [Option.isSome_iff_ne_none] using hseated) (by simpa using hopened)
    (cloneState_isCopy hnext)

theorem dispatch_handled (h : dispatch host s e = .ok s') : Handled host s e s' := by
  unfold dispatch at h
  cases hp : e.payload with rw [hp] at h
  | join p => exact handleJoin_handled hp h
  | lock p => exact handleLock_handled hp h
  | settlementStalled p => exact handleSettlementStalled_handled hp h
  | vote p => exact handleVote_handled hp h
  | resolve p => exact handleResolve_handled hp h
  | claim p => exact handleClaim_handled hp h
  | complete p => exact handleComplete_handled hp h
  | cancel p => exact handleCancel_handled hp h
  | chat p => exact handleChat_handled hp h
  | subscribe p => exact handleSubscribe_handled hp h
  | periodRelease p => exact handlePeriodRelease_handled hp h
  | planStart p => exact handlePlanStart_handled hp h
  | childKey p => exact handleChildKey_handled hp h
  | lockStep p => exact handleLockStep_handled hp h
  | create p => cases h
  | premium p => cases h
  | settlement p => cases h

/-! ### Steps -/

/-- What takes a state past its deadline: `next` is its expired copy. -/
structure Expires (s : EscrowState) (e : ParsedEscrowEvent) (next : EscrowState) : Prop where
  late : isPastDeadline s e = true
  status : s.status = .created ∨ s.status = .locked
  placed : asksForAPlace s = true → mayCarryPastExpiry s e.pubkey = .ok true
  copied : expire s = .ok next

inductive Stepped (host : Host) (s : EscrowState) (e : ParsedEscrowEvent) : EscrowState → Prop
  | echoed (known : s.hasEvent e.id ∨ e.kind = .premium ∨ e.kind = .settlement) : Stepped host s e s
  | premium {p : PremiumPayload} {next : EscrowState} (payload : e.payload = .premium p)
      (author : isPrincipalKey s e.pubkey = true) (clone : IsCopy s next) :
      Stepped host s e { next with premiumNotes := next.premiumNotes ++ [e] }
  | settlement {p : SettlementPayload} {next : EscrowState} (payload : e.payload = .settlement p)
      (author : getRole s e.pubkey = some p.role) (clone : IsCopy s next) :
      Stepped host s e { next with settlements := next.settlements ++ [⟨e.raw, p⟩] }
  | expired {next : EscrowState} (kind : e.kind ≠ .vote ∧ e.kind ≠ .lockStep)
      (expires : Expires s e next) : Stepped host s e next
  | handled {s' : EscrowState} (fresh : s.hasEvent e.id = false)
      (opened : s.status.isTrulyTerminal = false)
      (due : isPastDeadline s e = false ∨ s.status = .expired) (law : outcomeLaw host s e = none)
      (handled : Handled host s e s') : Stepped host s e s'
  | lateHandled {live s' : EscrowState} (fresh : s.hasEvent e.id = false)
      (kind : e.kind = .vote ∨ e.kind = .lockStep) (expires : Expires s e live)
      (handled : Handled host live e s') : Stepped host s e s'

theorem status_of_isPastDeadline (h : isPastDeadline s e = true) (hexpired : s.status ≠ .expired)
    (hopen : s.status.isTrulyTerminal = false) : s.status = .created ∨ s.status = .locked := by
  simp only [isPastDeadline, Bool.and_eq_true, decide_eq_true_eq] at h
  obtain ⟨⟨-, happroved⟩, hclaimed⟩ := h
  cases hs : s.status <;> simp_all [EscrowStatus.isTrulyTerminal]

theorem placed_of_placeGate (h : placeGate s e = .ok ()) (hasks : asksForAPlace s = true) :
    mayCarryPastExpiry s e.pubkey = .ok true := by
  unfold placeGate at h
  rw [if_pos hasks] at h
  simp only [bind_eq_ok, js_eq_ok, guardErr_eq_ok] at h
  obtain ⟨placed, hplaced, hyes⟩ := h
  rw [hplaced]
  simpa using hyes

theorem expiryGate_cases {due : AtDeadline} (h : expiryGate s e = .ok due)
    (hopen : s.status.isTrulyTerminal = false) :
    (due = .dispatch s ∧ (isPastDeadline s e = false ∨ s.status = .expired)) ∨
      ∃ next, Expires s e next ∧
        due = if e.kind = .vote ∨ e.kind = .lockStep then .dispatch next else .expired next := by
  unfold expiryGate at h
  split_ifs at h with hlate
  · simp only [bind_eq_ok] at h
    obtain ⟨_, hplace, h⟩ := h
    unfold passDeadline at h
    by_cases hexpired : s.status = .expired
    · rw [if_pos hexpired] at h
      exact Or.inl ⟨(Except.ok.inj h).symm, Or.inr hexpired⟩
    · rw [if_neg hexpired] at h
      simp only [bind_eq_ok, js_eq_ok, pure_eq_ok] at h
      obtain ⟨next, hnext, rfl⟩ := h
      exact Or.inr ⟨next, ⟨hlate, status_of_isPastDeadline hlate hexpired hopen,
        placed_of_placeGate hplace, hnext⟩, rfl⟩
  · exact Or.inl ⟨(Except.ok.inj h).symm, Or.inl (by simpa using hlate)⟩

theorem applyConsensus_stepped (hlaw : outcomeLaw host s e = none)
    (h : applyConsensus host s e = .ok s') : Stepped host s e s' := by
  unfold applyConsensus at h
  split_ifs at h with hknown
  · obtain rfl := Except.ok.inj h
    exact .echoed (Or.inl hknown)
  · have hfresh : s.hasEvent e.id = false := by simpa using hknown
    simp only [bind_eq_ok, guardErr_eq_ok] at h
    obtain ⟨-, hopen, due, hdue, h⟩ := h
    replace hopen : s.status.isTrulyTerminal = false := by simpa using hopen
    rcases expiryGate_cases hdue hopen with ⟨rfl, hready⟩ | ⟨next, hexpires, rfl⟩
    · exact .handled hfresh hopen hready hlaw (dispatch_handled h)
    · split_ifs at h with hkind
      · exact .lateHandled hfresh hkind hexpires (dispatch_handled h)
      · obtain rfl := pure_eq_ok.mp h
        exact .expired (not_or.mp hkind) hexpires

theorem applyToState_stepped (h : applyToState host s e = .ok s') : Stepped host s e s' := by
  unfold applyToState at h
  split at h
  case h_1 => cases h
  case h_2 p hp =>
    unfold handlePremium at h
    split_ifs at h with hknown
    · obtain rfl := Except.ok.inj h
      exact .echoed (Or.inr (Or.inl (by simp [ParsedEscrowEvent.kind, hp, EscrowPayload.kind])))
    · simp only [bind_eq_ok, guardErr_eq_ok, js_eq_ok, pure_eq_ok] at h
      obtain ⟨-, hauthor, next, hnext, rfl⟩ := h
      exact .premium hp (by simpa using hauthor) (cloneState_isCopy hnext)
  case h_3 p hp =>
    unfold handleSettlement at h
    split_ifs at h with hknown
    · obtain rfl := Except.ok.inj h
      exact .echoed (Or.inr (Or.inr (by simp [ParsedEscrowEvent.kind, hp, EscrowPayload.kind])))
    · simp only [bind_eq_ok, guardErr_eq_ok, js_eq_ok, pure_eq_ok] at h
      obtain ⟨-, hauthor, next, hnext, rfl⟩ := h
      exact .settlement hp (by simpa using hauthor) (cloneState_isCopy hnext)
  case h_4 =>
    simp only [bind_eq_ok, guardNone_eq_ok] at h
    obtain ⟨-, hlaw, h⟩ := h
    exact applyConsensus_stepped hlaw h

theorem applyConsensus_dispatch (hfresh : s.hasEvent e.id = false)
    (hopen : s.status.isTrulyTerminal = false)
    (hdue : isPastDeadline s e = false ∨ s.status = .expired) :
    applyConsensus host s e = dispatch host s e := by
  have hgate : expiryGate s e = .ok (.dispatch s) := by
    unfold expiryGate
    by_cases hlate : isPastDeadline s e = true
    · have hexpired : s.status = .expired := hdue.resolve_left (by simp [hlate])
      have hplace : placeGate s e = .ok () := by simp [placeGate, asksForAPlace, hexpired]
      rw [if_pos hlate, hplace]
      simp [passDeadline, hexpired, bind, Except.bind]
    · rw [if_neg hlate]
  unfold applyConsensus
  rw [if_neg (by simp [hfresh]), hgate, hopen]
  rfl

def EscrowEventKind.isConsensus : EscrowEventKind → Bool
  | .create | .premium | .settlement => false
  | _ => true

theorem applyToState_consensus (hkind : e.payload.kind.isConsensus = true) :
    applyToState host s e = (do
      guardNone (outcomeLaw host s e) .chamaRefundOnly e.id
      applyConsensus host s e) := by
  unfold applyToState
  split
  case h_4 => rfl
  all_goals
    rename_i hp
    rw [hp] at hkind
    cases hkind

theorem applyToState_dispatch (hkind : e.payload.kind.isConsensus = true)
    (hlaw : outcomeLaw host s e = none) (hfresh : s.hasEvent e.id = false)
    (hopen : s.status.isTrulyTerminal = false)
    (hdue : isPastDeadline s e = false ∨ s.status = .expired) :
    applyToState host s e = dispatch host s e := by
  rw [applyToState_consensus hkind, hlaw, applyConsensus_dispatch hfresh hopen hdue]
  rfl

theorem Stepped.reaches (h : Stepped host s e s') (hfresh : s.hasEvent e.id = false)
    (hdue : isPastDeadline s e = false ∨ s.status = .expired)
    (hkind : e.kind ≠ .premium ∧ e.kind ≠ .settlement) : Handled host s e s' := by
  have on_time {next : EscrowState} (expires : Expires s e next) : False := by
    rcases hdue with hdue | hdue
    · rw [expires.late] at hdue
      cases hdue
    · simpa [hdue] using expires.status
  cases h with
  | echoed known => simp [hfresh, hkind] at known
  | premium payload =>
    exact absurd (by rw [ParsedEscrowEvent.kind, payload, EscrowPayload.kind]) hkind.1
  | settlement payload =>
    exact absurd (by rw [ParsedEscrowEvent.kind, payload, EscrowPayload.kind]) hkind.2
  | expired _ expires => exact (on_time expires).elim
  | handled _ _ _ _ handled => exact handled
  | lateHandled _ _ expires => exact (on_time expires).elim

/-! ### Expired copies -/

/-- An expired copy differs from its original in its status, in the spelling of the pools and in the
properties that the period array has lost. -/
theorem Expires.eq (h : Expires s e next) :
    ∃ copy, IsCopy s copy ∧ next = { copy with status := .expired } := by
  have := h.copied
  simp only [expire, bind_eq_ok, pure_eq_ok] at this
  obtain ⟨copy, hcopy, rfl⟩ := this
  exact ⟨copy, cloneState_isCopy hcopy, rfl⟩

theorem Expires.eventChain (h : Expires s e next) : next.eventChain = s.eventChain := by
  obtain ⟨copy, clone, rfl⟩ := h.eq
  exact clone.eventChain

theorem Expires.status_eq (h : Expires s e next) : next.status = .expired := by
  obtain ⟨copy, -, rfl⟩ := h.eq
  rfl

/-! ### The terms -/

theorem Handled.terms (h : Handled host s e s') : s'.toTradeTerms = s.toTradeTerms := by
  cases h
  case planRepeated => rfl
  case voted clone count =>
    obtain ⟨votes, acting, rfl⟩ := countVote_eq_ok count
    exact clone.terms
  case stalled clone => exact clone.terms
  all_goals
    rename_i clone
    exact clone.terms

theorem Expires.terms (h : Expires s e next) : next.toTradeTerms = s.toTradeTerms := by
  obtain ⟨copy, clone, rfl⟩ := h.eq
  exact clone.terms

theorem Stepped.terms (h : Stepped host s e s') : s'.toTradeTerms = s.toTradeTerms := by
  cases h with
  | echoed => rfl
  | premium _ _ clone => exact clone.terms
  | settlement _ _ clone => exact clone.terms
  | expired _ expires => exact expires.terms
  | handled _ _ _ _ handled => exact handled.terms
  | lateHandled _ _ expires handled => exact handled.terms.trans expires.terms

/-! ### The chain -/

theorem IsCopy.push (clone : IsCopy s next) : next.push e = s.eventChain ++ [e] := by
  rw [EscrowState.push, clone.eventChain]

theorem Handled.eventChain (h : Handled host s e s') :
    s'.eventChain = s.eventChain ∨ s'.eventChain = s.eventChain ++ [e] := by
  cases h
  case planRepeated => exact Or.inl rfl
  case lockAccepted clone => exact Or.inl clone.eventChain
  case sharesReleased clone => exact Or.inl clone.eventChain
  case chatted clone => exact Or.inl clone.eventChain
  case voted clone count =>
    obtain ⟨votes, acting, rfl⟩ := countVote_eq_ok count
    exact Or.inr clone.push
  case stalled clone => exact Or.inr (congrArg (· ++ [e]) clone.eventChain)
  all_goals exact Or.inr (IsCopy.push (by assumption))

theorem Stepped.eventChain (h : Stepped host s e s') :
    s'.eventChain = s.eventChain ∨ s'.eventChain = s.eventChain ++ [e] := by
  cases h with
  | echoed => exact Or.inl rfl
  | premium _ _ clone => exact Or.inl clone.eventChain
  | settlement _ _ clone => exact Or.inl clone.eventChain
  | expired _ expires => exact Or.inl expires.eventChain
  | handled _ _ _ _ handled => exact handled.eventChain
  | lateHandled _ _ expires handled =>
    rw [← expires.eventChain]
    exact handled.eventChain

variable {v : ParsedEscrowEvent}

theorem Stepped.mem (h : Stepped host s e s') (hv : v ∈ s.eventChain) : v ∈ s'.eventChain := by
  rcases h.eventChain with hsame | hpush
  · rwa [hsame]
  · rw [hpush]
    exact List.mem_append_left _ hv

theorem hasLock_iff : s.hasLock = true ↔ ∃ v ∈ s.eventChain, v.kind = .lock := by
  simp [EscrowState.hasLock]

theorem Stepped.hasLock (h : Stepped host s e s') (hs : s.hasLock = true) :
    s'.hasLock = true := by
  obtain ⟨v, hv, hkind⟩ := hasLock_iff.mp hs
  exact hasLock_iff.mpr ⟨v, h.mem hv, hkind⟩

theorem Handled.of_lock (h : Handled host s e s') (hkind : e.kind = .lock) :
    s.status = .created ∧ s'.status = .locked := by
  cases h
  case locked status _ _ _ _ _ _ _ _ _ => exact ⟨status, rfl⟩
  case planRepeated => simp_all [ParsedEscrowEvent.kind, EscrowPayload.kind]
  all_goals simp_all [ParsedEscrowEvent.kind, EscrowPayload.kind]

theorem Stepped.of_new (h : Stepped host s e s') (hv : v ∈ s'.eventChain) (hnew : v ∉ s.eventChain)
    (hkind : v.kind ≠ .vote ∧ v.kind ≠ .lockStep) :
    v = e ∧ s.hasEvent e.id = false ∧ (isPastDeadline s e = false ∨ s.status = .expired) ∧
      Handled host s e s' := by
  obtain rfl : v = e := by
    rcases h.eventChain with hsame | hpush
    · rw [hsame] at hv
      exact absurd hv hnew
    · rw [hpush, List.mem_append, List.mem_singleton] at hv
      exact hv.resolve_left hnew
  have kept {t : EscrowState} (hchain : t.eventChain = s.eventChain) (ht : v ∈ t.eventChain) :
      False := hnew (hchain ▸ ht)
  refine ⟨rfl, ?_⟩
  cases h with
  | handled fresh _ due _ handled => exact ⟨fresh, due, handled⟩
  | lateHandled _ kind => simp [hkind] at kind
  | echoed => exact absurd hv hnew
  | premium _ _ clone => exact (kept clone.eventChain hv).elim
  | settlement _ _ clone => exact (kept clone.eventChain hv).elim
  | expired _ expires => exact (kept expires.eventChain hv).elim

theorem Stepped.of_new_lock (h : Stepped host s e s') (hs : s.hasLock = false)
    (hs' : s'.hasLock = true) :
    e.kind = .lock ∧ s.hasEvent e.id = false ∧
      (isPastDeadline s e = false ∨ s.status = .expired) ∧ Handled host s e s' := by
  obtain ⟨v, hv, hkind⟩ := hasLock_iff.mp hs'
  have hnew : v ∉ s.eventChain := by
    intro hmem
    rw [hasLock_iff.mpr ⟨v, hmem, hkind⟩] at hs
    cases hs
  obtain ⟨rfl, hreaches⟩ := h.of_new hv hnew (by simp [hkind])
  exact ⟨hkind, hreaches⟩

/-! ### Creation -/

structure Newborn (e : ParsedEscrowEvent) (p : CreatePayload) (s : EscrowState) : Prop where
  payload : e.payload = .create p
  id : s.id = e.escrowId
  category : s.category = p.category
  chamaPolicy : s.chamaPolicy = p.chamaPolicy.policy
  policy_of_lending : p.category = "lending" → p.chamaPolicy = .absent
  trancheChild : s.trancheChild = p.trancheChild
  initiator : s.initiator = ⟨e.pubkey, (createSeats e p).1⟩
  createdAt : s.createdAt = e.timestamp
  status : s.status = .created
  amountMsats : s.amountMsats = p.amountMsats
  onchainFundingTerms : s.onchainFundingTerms = none
  tranchePlan : s.tranchePlan = none
  participants : ∃ arbiter, s.participants = { (createSeats e p).2 with arbiter }
  joinHolds : s.joinHolds = ⟨none, none, none⟩
  subscription : s.subscription = none
  votes : s.votes = .empty
  resolvedOutcome : s.resolvedOutcome = none
  actingArbiter : s.actingArbiter = none
  lock : s.lock = {}
  tradeTimeoutSeconds : s.tradeTimeoutSeconds = some p.expirySeconds
  eventChain : s.eventChain = [e]
  settlements : s.settlements = []

variable {p : CreatePayload}

theorem absent_of_chamaCreateError {id pubkey : String} {time : JsNumber}
    {parent : Option CircleView} {witness : Option ShareView} {cycle : Option ChamaCycleContext}
    {sim : Bool} (h : chamaCreateError host p id pubkey time parent witness cycle sim = .ok none)
    (hchama : p.category ≠ "chama") (hshare : p.category ≠ "chama-share") :
    p.chamaPolicy = .absent := by
  unfold chamaCreateError at h
  split_ifs at h with hplain
  · simp only [isPlainCreate, Bool.and_eq_true, decide_eq_true_eq] at hplain
    exact hplain.1.2
  · split at h
    · cases h
    · split at h <;> cases h

theorem handleCreate_newborn (hp : e.payload = .create p)
    (h : handleCreate host e p = .ok s) : Newborn e p s := by
  simp only [handleCreate, bind_eq_ok, pure_eq_ok] at h
  obtain ⟨chamaError, hchama, _, hlaw, _, -, _, -, _, -, _, -, _, -, _, -, arbiter, -, _, -,
      rfl⟩ := h
  constructor
  case payload => exact hp
  case policy_of_lending =>
    intro hlending
    rw [js_eq_ok] at hchama
    rw [guardNone_eq_ok] at hlaw
    subst hlaw
    exact absent_of_chamaCreateError hchama (by rw [hlending]; decide) (by rw [hlending]; decide)
  case participants => exact ⟨arbiter, rfl⟩
  all_goals rfl

theorem Created.newborn (h : Created host s) : ∃ e p, Newborn e p s := by
  obtain ⟨e, p, hp, hs⟩ := (created_iff host).mp h
  exact ⟨e, p, handleCreate_newborn hp hs⟩

theorem Newborn.hasLock (h : Newborn e p s) : s.hasLock = false := by
  simp [EscrowState.hasLock, h.eventChain, ParsedEscrowEvent.kind, h.payload, EscrowPayload.kind]

end ChamaEscrow
