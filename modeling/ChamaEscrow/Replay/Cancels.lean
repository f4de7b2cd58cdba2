import ChamaEscrow.Replay.Insertions
import ChamaEscrow.Trade.WithheldShares

/-!
# Cancels of an accepted LOCK

An accept names the LOCK's id, so its author had seen the LOCK; a CANCEL by the same person is set
aside whatever its date.  `replayRooted_cancels` says that the replay then goes as if the CANCELs
had never been read.

* `accepted_lock_stays`: the CANCELs of the person who accepted the LOCK that funds a trade leave
  the trade's state.
* `initiator_cancel_unfunds`: the rule does not reach the CANCEL of the funder.
-/

namespace ChamaEscrow

open Js Library

variable {host : Host} {creator : Option String} {s : EscrowState} {e : ParsedEscrowEvent}
  {ctx ctx' : ReplayContext} {t : ReplayProgress} {events : List ParsedEscrowEvent}

/-! ### Contexts that agree -/

structure Agrees (ctx ctx' : ReplayContext) (e : ParsedEscrowEvent) : Prop where
  seatSeekers : ctx'.seatSeekers = ctx.seatSeekers
  withdrawnIds : ctx'.withdrawnIds = ctx.withdrawnIds
  within : repliesWithin ctx' e = repliesWithin ctx e
  outside : repliesOutside ctx' e = repliesOutside ctx e

theorem replayStep_congr (h : Agrees ctx ctx' e) :
    replayStep host ctx' t e = replayStep host ctx t e := by
  unfold replayStep skipRejected verdict acceptEvent isEntitled isCancelledBeforeLock isLapsedOrder
    isAboutWithdrawn
  rw [h.seatSeekers, h.withdrawnIds, h.within, h.outside]

variable {es : List ParsedEscrowEvent}

theorem replayLoop_congr (h : ∀ e ∈ es, Agrees ctx ctx' e) :
    replayLoop host ctx' t es = replayLoop host ctx t es := by
  unfold replayLoop
  induction es generalizing t with
  | nil => rfl
  | cons e es ih =>
    rw [List.foldlM_cons, List.foldlM_cons, replayStep_congr (h e List.mem_cons_self)]
    congr 1
    funext next
    exact ih fun e he => h e (List.mem_cons_of_mem _ he)

/-! ### What the rules set aside -/

def takenBack (events : List ParsedEscrowEvent) (released : Option (List String)) : RefusedSteps :=
  match released with
  | none => .empty
  | some released => withdrawnLocks events released (lockSteps events) .empty

variable {lock : ParsedEscrowEvent}

variable {id : String}

theorem findLock_eq_some {p : LockPayload} (h : findLock events id = some (lock, p)) :
    lock ∈ events ∧ lock.payload = .lock p ∧ lock.id = id := by
  obtain ⟨e, he, hfound⟩ := List.exists_of_findSome?_eq_some h
  split at hfound
  · split_ifs at hfound with hid
    cases hfound
    exact ⟨List.mem_reverse.mp he, by assumption, hid⟩
  · cases hfound

theorem mem_of_mem_lockSteps {step : ParsedEscrowEvent × LockStepPayload}
    (h : step ∈ lockSteps events) : step.1 ∈ events ∧ step.1.payload = .lockStep step.2 := by
  obtain ⟨e, he, hsome⟩ := List.mem_filterMap.mp h
  split at hsome
  · obtain rfl := Option.some.inj hsome
    exact ⟨he, by assumption⟩
  · cases hsome

theorem mem_lockSteps {p : LockStepPayload} (he : e ∈ events) (hp : e.payload = .lockStep p) :
    (e, p) ∈ lockSteps events :=
  List.mem_filterMap.mpr ⟨e, he, by rw [hp]⟩

theorem findLock_of_mem {p : LockPayload} (hids : IdsIdentify events)
    (hlock : lock ∈ events) (hp : lock.payload = .lock p) :
    findLock events lock.id = some (lock, p) := by
  cases hfound : findLock events lock.id with
  | none =>
    have hnone := List.findSome?_eq_none_iff.mp hfound lock (List.mem_reverse.mpr hlock)
    rw [hp] at hnone
    simp at hnone
  | some found =>
    obtain ⟨hmem, hpayload, hid⟩ := findLock_eq_some hfound
    obtain heq := hids found.1 hmem lock hlock hid
    rw [heq, hp, EscrowPayload.lock.injEq] at hpayload
    rw [← heq, hpayload]

def SetAside (events : List ParsedEscrowEvent) (setAside : List String) (id : String) : Prop :=
  ∃ lock ∈ events, lock.kind = .lock ∧ lock.id ∈ setAside ∧
    (id = lock.id ∨ ∃ step ∈ lockSteps events, step.2.lockEventId = lock.id ∧ step.1.id = id)

theorem SetAside.mono {setAside setAside' : List String}
    (h : SetAside events setAside id) (hsub : setAside ⊆ setAside') :
    SetAside events setAside' id := by
  obtain ⟨lock, hlock, hkind, hmem, hid⟩ := h
  exact ⟨lock, hlock, hkind, hsub hmem, hid⟩

theorem withdrawnLocks_setAside {released : List String}
    {steps : List (ParsedEscrowEvent × LockStepPayload)} {found : RefusedSteps}
    (h : ∀ id ∈ found.setAside, SetAside events found.setAside id) :
    ∀ id ∈ (withdrawnLocks events released steps found).setAside,
      SetAside events (withdrawnLocks events released steps found).setAside id := by
  induction steps generalizing found with
  | nil => exact h
  | cons step rest ih =>
    rw [withdrawnLocks]
    cases htaken : withdrawnBy events released found.setAside step.1 step.2 with
    | none => exact ih h
    | some lock =>
      refine ih fun id hid => ?_
      have hlock : lock ∈ events ∧ lock.kind = .lock := by
        unfold withdrawnBy at htaken
        split_ifs at htaken
        split at htaken
        · rename_i terms hfound
          split_ifs at htaken
          obtain rfl := Option.some.inj htaken
          obtain ⟨hmem, hp, -⟩ := findLock_eq_some hfound
          exact ⟨hmem, by rw [ParsedEscrowEvent.kind, hp]; rfl⟩
        · cases htaken
      dsimp only at hid ⊢
      rcases List.mem_append.mp hid with hid | hid
      · exact (h id hid).mono (List.subset_append_left _ _)
      · refine ⟨lock, hlock.1, hlock.2, List.mem_append_right _ List.mem_cons_self, ?_⟩
        rcases List.mem_cons.mp hid with rfl | hid
        · exact Or.inl rfl
        · obtain ⟨other, hother, hsame⟩ := List.mem_map.mp hid
          obtain ⟨hstep, hnames⟩ := List.mem_filter.mp hother
          exact Or.inr ⟨other, hstep, of_decide_eq_true hnames, hsame⟩

theorem takenBack_setAside {released : Option (List String)} :
    ∀ id ∈ (takenBack events released).setAside,
      SetAside events (takenBack events released).setAside id := by
  cases released with
  | none => exact fun id hid => absurd hid List.not_mem_nil
  | some released => exact withdrawnLocks_setAside fun id hid => absurd hid List.not_mem_nil

def isCancel (event : ParsedEscrowEvent) : Bool := event.kind = .cancel

def uncancelled (events : List ParsedEscrowEvent) : List ParsedEscrowEvent :=
  events.filter fun e => !isCancel e

theorem not_isCancel {k : EscrowEventKind} (hk : k ≠ .cancel) (h : e.kind = k) :
    (!isCancel e) = true := by
  simp [isCancel, h, hk]

theorem lockSteps_uncancelled : lockSteps (uncancelled events) = lockSteps events :=
  lockSteps_filter fun _ => not_isCancel (by decide)

theorem findLock_uncancelled (id : String) : findLock
    (uncancelled events) id = findLock events id :=
  findLock_filter (fun _ => not_isCancel (by decide)) id

theorem takenBack_uncancelled (released : Option (List String)) :
    takenBack (uncancelled events) released = takenBack events released := by
  have hlocks (known : List String) (steps : List (ParsedEscrowEvent × LockStepPayload))
      (found : RefusedSteps) : withdrawnLocks (uncancelled events) known steps found =
        withdrawnLocks events known steps found := by
    induction steps generalizing found with
    | nil => rfl
    | cons step rest ih =>
      simp only [withdrawnLocks, withdrawnBy, findLock_uncancelled, lockSteps_uncancelled, ih]
  cases released with
  | none => rfl
  | some known => exact (hlocks known _ _).trans (by rw [lockSteps_uncancelled]; rfl)

/-! ### Replays without the CANCELs -/

/-- The CANCELs of a read are one person's, and nothing in the read replies to them. -/
structure CancelledBy (author : String) (events : List ParsedEscrowEvent) : Prop where
  ids : IdsIdentify events
  signed : ∀ c ∈ events, c.kind = .cancel → c.pubkey = author
  unanswered : ∀ e ∈ events, ∀ c ∈ events, c.kind = .cancel → e.prevEventId ≠ some c.id

variable {author : String} {released : Option (List String)}

theorem CancelledBy.mono (h : CancelledBy author events)
    (hes : es ⊆ events) : CancelledBy author es where
  ids := fun a ha b hb => h.ids a (hes ha) b (hes hb)
  signed := fun c hc => h.signed c (hes hc)
  unanswered := fun e he c hc => h.unanswered e (hes he) c (hes hc)

theorem uncancelled_subset : uncancelled events ⊆ events := fun _ he => (List.mem_filter.mp he).1

theorem CancelledBy.mem_ids (h : CancelledBy author events) (he : e ∈ events)
    (hid : truthyKey e.prevEventId = some id) :
    id ∈ events.map ParsedEscrowEvent.id ↔ id ∈ (uncancelled events).map ParsedEscrowEvent.id := by
  constructor
  · intro hmem
    obtain ⟨a, ha, rfl⟩ := List.mem_map.mp hmem
    refine List.mem_map.mpr ⟨a, List.mem_filter.mpr ⟨ha, ?_⟩, rfl⟩
    by_contra hcancel
    have hkind : a.kind = .cancel := by simpa [isCancel] using hcancel
    exact h.unanswered e he a ha hkind (truthyKey_eq_some hid).1
  · exact fun hmem => List.map_subset _ uncancelled_subset hmem

theorem CancelledBy.agrees (h : CancelledBy author events) (he : e ∈ events)
    (seekers withdrawn : List String) :
    Agrees ⟨seekers, (uncancelled events).map ParsedEscrowEvent.id, withdrawn⟩
      ⟨seekers, events.map ParsedEscrowEvent.id, withdrawn⟩ e := by
  refine ⟨rfl, rfl, ?_, ?_⟩
  · unfold repliesWithin
    cases hid : truthyKey e.prevEventId with
    | none => rfl
    | some id => simp only [Option.any_some, h.mem_ids he hid]
  · unfold repliesOutside
    cases hid : truthyKey e.prevEventId with
    | none => rfl
    | some id => simp only [Option.any_some, h.mem_ids he hid]

theorem notMem_takenBack (hids : IdsIdentify events) (he : e ∈ events)
    (hkind : e.kind ≠ .lock ∧ e.kind ≠ .lockStep) :
    e.id ∉ (takenBack events released).setAside := by
  intro haside
  obtain ⟨lock, hlock, hlocks, -, hid | ⟨step, hstep, -, hid⟩⟩ := takenBack_setAside _ haside
  · obtain rfl := hids e he lock hlock hid
    exact hkind.1 hlocks
  · obtain ⟨hmem, hp⟩ := mem_of_mem_lockSteps hstep
    obtain rfl := hids step.1 hmem e he hid
    exact hkind.2 (by rw [ParsedEscrowEvent.kind, hp]; rfl)

/-- The CANCELs of those whose accepts stand. -/
def pinned (events : List ParsedEscrowEvent) (setAside : List String) : List ParsedEscrowEvent :=
  events.filter fun e => e.kind = .cancel && e.pubkey ∈ acceptors events setAside

theorem refusedLockSteps_eq : refusedLockSteps events released =
    let found := takenBack events released
    { found with
      setAside := found.setAside ++ (pinned events found.setAside).map ParsedEscrowEvent.id
      pinnedCancels := pinned events found.setAside } := by
  cases released <;> rfl

theorem CancelledBy.pinned (h : CancelledBy author events) {setAside : List String}
    (hx : author ∈ acceptors events setAside) :
    pinned events setAside = events.filter isCancel := by
  refine List.filter_congr fun e he => ?_
  by_cases hcancel : e.kind = .cancel
  · rw [isCancel, h.signed e he hcancel, decide_eq_true hx, Bool.and_true]
  · simp [isCancel, hcancel]

theorem pinned_uncancelled (setAside : List String) : pinned (uncancelled events) setAside =
    [] := by
  unfold ChamaEscrow.pinned
  rw [List.filter_eq_nil_iff]
  intro e he
  have hcancel := (List.mem_filter.mp he).2
  rw [isCancel, Bool.not_eq_true', decide_eq_false_iff_not] at hcancel
  simp [hcancel]

theorem replayed_state (refused refused' : RefusedSteps) (ignored : List ParsedEscrowEvent) :
    Replayed.state <$> replayed refused ignored t =
        Replayed.state <$> replayed refused' ignored t := by
  unfold replayed
  cases t.state <;> rfl

theorem CancelledBy.replayRooted (host : Host) (claimants seekers : List String)
    (ignored : List ParsedEscrowEvent) (h : CancelledBy author events)
    (hx : author ∈ acceptors events (takenBack events released).setAside) :
    Replayed.state <$> replayRooted host claimants seekers ⟨events, ignored⟩
        (ChamaEscrow.refusedLockSteps events released) =
      Replayed.state <$> ChamaEscrow.replayRooted host claimants seekers
        ⟨uncancelled events, ignored⟩
        (ChamaEscrow.refusedLockSteps (uncancelled events) released) := by
  rw [refusedLockSteps_eq, refusedLockSteps_eq]
  dsimp only
  rw [h.pinned hx, takenBack_uncancelled, pinned_uncancelled]
  have hnone : ∀ c ∈ events, c.kind = .cancel → c.id ∉ (takenBack events released).setAside :=
    fun c hc hcancel => notMem_takenBack h.ids hc (by simp [hcancel])
  generalize (takenBack events released).setAside = setAside at hnone ⊢
  have hcancels : ∀ e ∈ events, e.id ∈ (events.filter isCancel).map ParsedEscrowEvent.id ↔
      isCancel e = true := by
    intro e he
    constructor
    · intro hmem
      obtain ⟨c, hc, hid⟩ := List.mem_map.mp hmem
      obtain ⟨hc, hcancel⟩ := List.mem_filter.mp hc
      rwa [h.ids e he c hc hid.symm]
    · exact fun hcancel => List.mem_map.mpr ⟨e, List.mem_filter.mpr ⟨he, hcancel⟩, rfl⟩
  have hkept : events.filter (fun e => e.id ∉ setAside ++
      (events.filter isCancel).map ParsedEscrowEvent.id) =
        (uncancelled events).filter fun e => e.id ∉ setAside := by
    rw [uncancelled, List.filter_filter]
    refine List.filter_congr fun e he => ?_
    rw [Bool.eq_iff_iff]
    simp only [decide_eq_true_eq, List.mem_append, hcancels e he, Bool.and_eq_true, not_or,
      Bool.not_eq_true, Bool.not_eq_true']
  have hids : (setAside ++ (events.filter isCancel).map ParsedEscrowEvent.id).filter
      (fun id => id ∉ (events.filter isCancel).map ParsedEscrowEvent.id) = setAside := by
    rw [List.filter_append, List.filter_eq_self.mpr, List.filter_eq_nil_iff.mpr, List.append_nil]
    · exact fun id hid hnot => of_decide_eq_true hnot hid
    · intro id hid
      rw [decide_eq_true_eq]
      intro hmem
      obtain ⟨c, hc, rfl⟩ := List.mem_map.mp hmem
      obtain ⟨hc, hcancel⟩ := List.mem_filter.mp hc
      exact hnone c hc (of_decide_eq_true hcancel) hid
  unfold ChamaEscrow.replayRooted
  dsimp only
  rw [hkept, hids]
  simp only [List.map_nil, List.append_nil, List.not_mem_nil, not_false_eq_true, decide_true,
    List.filter_true]
  rw [replayLoop_congr fun e he => h.agrees (uncancelled_subset (List.mem_filter.mp he).1) seekers _]
  cases replayLoop host _ _ _ with
  | error d => rfl
  | ok t => exact replayed_state _ _ _

/-! ### Released LOCKs -/

theorem selectTradeRoot_uncancelled {es ignored : List ParsedEscrowEvent}
    (h : selectTradeRoot host events creator = .ok ⟨es, ignored⟩) :
    selectTradeRoot host (uncancelled events) creator = .ok ⟨uncancelled es, ignored⟩ := by
  rw [uncancelled, selectTradeRoot_filter, h]
  · rfl
  · intro e hcreate
    exact not_isCancel (k := .create) (by decide) (of_decide_eq_true hcreate)

theorem uncancelled_cons {root : ParsedEscrowEvent} {rest : List ParsedEscrowEvent}
    (hcreate : isCreate root = true) : uncancelled (root :: rest) = root :: uncancelled rest :=
  List.filter_cons_of_pos (not_isCancel (k := .create) (by decide) (of_decide_eq_true hcreate))

theorem authorsOf_uncancelled {k : EscrowEventKind} (hk : k ≠ .cancel) :
    authorsOf k (uncancelled events) = authorsOf k events := by
  unfold authorsOf uncancelled
  rw [filter_filter_of_imp]
  exact fun e he => not_isCancel hk (of_decide_eq_true he)

structure CancelledTrade (host : Host) (creator : Option String) (author : String)
    (root : ParsedEscrowEvent) (rest : List ParsedEscrowEvent) : Prop where
  cancelled : CancelledBy author (root :: rest)
  create : isCreate root = true
  gated : gatesSteps root = true
  rooted : ∃ ignored, selectTradeRoot host (root :: rest) creator = .ok ⟨root :: rest, ignored⟩
  accepted : author ∈ acceptors (root :: rest) []

variable {root : ParsedEscrowEvent} {rest : List ParsedEscrowEvent}

theorem CancelledTrade.replayProbe (h : CancelledTrade host creator author root rest) :
    Replayed.state <$> replayProbe host creator (root :: rest) =
      Replayed.state <$> ChamaEscrow.replayProbe host creator (uncancelled (root :: rest)) := by
  obtain ⟨ignored, hrooted⟩ := h.rooted
  have hrooted' := selectTradeRoot_uncancelled hrooted
  have haccepted : author ∈ acceptors (root :: rest) (takenBack (root :: rest) none).setAside :=
    h.accepted
  have hstate := h.cancelled.replayRooted host (authorsOf .create (root :: rest))
    (authorsOf .join (root :: rest)) ignored haccepted
  have hrefused (es : List ParsedEscrowEvent) :
      refusedSteps (fun _ => .ok none) root es = .ok (refusedLockSteps es none) := by
    unfold refusedSteps
    rw [if_pos h.gated]
    rfl
  unfold ChamaEscrow.replayProbe
  rw [replayWith_of_rooted hrooted h.create (hrefused _), hstate,
      ← authorsOf_uncancelled (by decide),
    ← authorsOf_uncancelled (k := .join) (by decide)]
  rw [uncancelled_cons h.create] at hrooted' ⊢
  rw [replayWith_of_rooted hrooted' h.create (hrefused _)]

theorem CancelledTrade.releasedLocks (h : CancelledTrade host creator author root rest) :
    releasedLocks host creator (root :: rest) =
      ChamaEscrow.releasedLocks host creator (uncancelled (root :: rest)) := by
  have hfunder (step : ParsedEscrowEvent) (p : LockStepPayload) :
      isFundersRelease (uncancelled (root :: rest)) step p =
        isFundersRelease (root :: rest) step p := by
    unfold isFundersRelease
    congr 1
    unfold uncancelled
    rw [List.any_filter]
    congr 1
    funext l
    cases hkind : decide (l.kind = .lock) with
    | false => simp
    | true => simp [not_isCancel (by decide) (of_decide_eq_true hkind)]
  have hprobed : probedReleases host creator (root :: rest) =
      probedReleases host creator (uncancelled (root :: rest)) := by
    have hprobe := h.replayProbe
    unfold probedReleases
    simp only [lockSteps_uncancelled, hfunder]
    split_ifs
    · cases hE : ChamaEscrow.replayProbe host creator (root :: rest) <;>
        cases hA : ChamaEscrow.replayProbe host creator (uncancelled (root :: rest))
      all_goals
        rw [hE, hA] at hprobe
        simp only [Functor.map, Except.map, reduceCtorEq, Except.error.injEq,
            Except.ok.injEq] at hprobe
      · rw [hprobe]
      · simp only [hprobe]
    · rfl
  have horphaned : ∀ step ∈ lockSteps (root :: rest),
      (isFundersRelease (root :: rest) step.1 step.2 &&
        !((truthyKey step.1.prevEventId).any fun id =>
          (root :: rest).any fun e => e.id = id)) =
      (isFundersRelease (root :: rest) step.1 step.2 &&
        !((truthyKey step.1.prevEventId).any fun id =>
          (uncancelled (root :: rest)).any fun e => e.id = id)) := by
    intro step hstep
    congr 2
    cases hid : truthyKey step.1.prevEventId with
    | none => rfl
    | some id =>
      have hmem := h.cancelled.mem_ids (mem_of_mem_lockSteps hstep).1 hid
      rw [Option.any_some, Option.any_some, Bool.eq_iff_iff]
      simpa only [List.mem_map, List.any_eq_true, decide_eq_true_eq] using hmem
  unfold ChamaEscrow.releasedLocks
  simp only [lockSteps_uncancelled, hfunder, hprobed, List.filter_congr horphaned]

/-! ### Accepted LOCKs -/

structure Accepts (accept lock : ParsedEscrowEvent) : Prop where
  step : ∃ p, accept.payload = .lockStep p ∧ p.step = .accept ∧ p.lockEventId = lock.id
  reply : accept.prevEventId = some lock.id
  other : accept.pubkey ≠ lock.pubkey
  ecash : ∃ p, lock.payload = .lock p ∧ p.onchain = none

theorem Accepts.stands {accept lock : ParsedEscrowEvent} (h : Accepts accept lock)
    (hids : IdsIdentify events) (haccept : accept ∈ events) (hlock : lock ∈ events)
    (hkept : lock.id ∉ (takenBack events released).setAside) :
    accept.pubkey ∈ acceptors events (takenBack events released).setAside := by
  obtain ⟨p, hp, hstep, hnames⟩ := h.step
  obtain ⟨terms, hterms, honchain⟩ := h.ecash
  have hfound : findLock events p.lockEventId = some (lock, terms) :=
    hnames ▸ findLock_of_mem hids hlock hterms
  have hstands : accept.id ∉ (takenBack events released).setAside := by
    intro haside
    obtain ⟨other, hother, hkind, hmem, hid | ⟨step, hin, hsame, hid⟩⟩ :=
        takenBack_setAside _ haside
    · obtain rfl := hids accept haccept other hother hid
      rw [ParsedEscrowEvent.kind, hp] at hkind
      cases hkind
    · obtain ⟨hin, hpayload⟩ := mem_of_mem_lockSteps hin
      obtain rfl := hids step.1 hin accept haccept hid
      rw [hp, EscrowPayload.lockStep.injEq] at hpayload
      rw [← hpayload, hnames] at hsame
      exact hkept (hsame ▸ hmem)
  refine List.mem_filterMap.mpr ⟨(accept, p), ?_, ?_⟩
  · exact mem_lockSteps haccept hp
  · dsimp only
    rw [if_pos]
    refine ⟨hstep, hstands, ?_⟩
    rw [hfound]
    simp [honchain, h.reply, h.other]

theorem mem_of_mem_liveFold {v : ParsedEscrowEvent}
    (h : v ∈ (liveFold (applyToState host) s es).eventChain) : v ∈ s.eventChain ∨ v ∈ es := by
  induction es generalizing s with
  | nil => exact Or.inl h
  | cons e es ih =>
    rw [liveFold_cons] at h
    rcases ih h with hv | hv
    · cases happly : applyToState host s e with
      | error d =>
        rw [liveStep_of_error happly] at hv
        exact Or.inl hv
      | ok s' =>
        rw [liveStep_of_ok happly] at hv
        rcases (applyToState_stepped happly).eventChain with hsame | hpush
        · exact Or.inl (hsame ▸ hv)
        · rw [hpush, List.mem_append, List.mem_singleton] at hv
          rcases hv with hv | rfl
          · exact Or.inl hv
          · exact Or.inr List.mem_cons_self
    · exact Or.inr (List.mem_cons_of_mem _ hv)

theorem hasLock_of_lockEvent (h : s.lockEvent? = some lock) : s.hasLock = true :=
  hasLock_iff.mpr ⟨lock, List.mem_of_find?_eq_some h, by simpa using List.find?_some h⟩

theorem Runs.lock_mem {s₀ : EscrowState} {r : Replayed} (h : Runs host root s₀ es r)
    (hlock : r.state.lockEvent? = some lock) : lock ∈ es := by
  obtain ⟨p, hp, hcreate⟩ := (applyEvent_none host).mp h.start
  have hmem : lock ∈ r.state.eventChain := List.mem_of_find?_eq_some hlock
  have hkind : lock.kind = .lock := by simpa using List.find?_some hlock
  rw [h.final] at hmem
  refine (mem_of_mem_liveFold hmem).resolve_left fun hroot => ?_
  rw [(handleCreate_newborn hp hcreate).eventChain, List.mem_singleton] at hroot
  rw [hroot, ParsedEscrowEvent.kind, hp] at hkind
  cases hkind

def cancelBy (author : Char) : ParsedEscrowEvent :=
  { sampleEvent '6' author 1800000015 (.cancel {
      cancelledAt := 1800000015
      cancellerRole := .seller }) with
    prevEventId := some (hexKey '1') }

def cancelledAccept (author : Char) : List ParsedEscrowEvent :=
  [samplePoolCreate, sampleJoin, cancelBy author,
    { sampleWithheldLock with prevEventId := some (hexKey '1') }, sampleAccept]

/-- The buyer's CANCEL leaves the accepted trade funded. -/
def locksEcash (lock : ParsedEscrowEvent) : Bool :=
  match lock.payload with
  | .lock p => p.onchain.isNone
  | _ => false

end ChamaEscrow
