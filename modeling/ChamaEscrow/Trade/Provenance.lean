import ChamaEscrow.Replay.Roots

/-!
# Where a lock comes from

What a state says about its LOCK it has from events: the notes from the LOCK of its chain, and the
accept from a LOCK_STEP that names that LOCK.

* `Sourced.same_lock`: two states that were made of one list of events, and hold the same accept,
  hold the same LOCK.
* `sourced_of_replay`: a replay makes its state of the events that it read.
-/

namespace ChamaEscrow

open Js Library

variable {host : Host} {s s' : EscrowState} {e lock : ParsedEscrowEvent}
  {events : List ParsedEscrowEvent}

/-! ### One step -/

theorem Stepped.lockEvent (h : Stepped host s e s') (hlock : s.lockEvent? = some lock) :
    s'.lockEvent? = some lock := by
  unfold EscrowState.lockEvent? at hlock ⊢
  rcases h.eventChain with hsame | hpush
  · rw [hsame]
    exact hlock
  · rw [hpush, List.find?_append, hlock]
    rfl

theorem handleLockStep_names {p : LockStepPayload} (h : handleLockStep s e p = .ok s') :
    ∃ lock, s.lockEvent? = some lock ∧ lock.id = p.lockEventId := by
  simp only [handleLockStep, bind_eq_ok, guardErr_eq_ok] at h
  obtain ⟨-, -, h⟩ := h
  split at h
  · cases h
  · rename_i lock hlock
    rw [Option.filter_eq_some_iff] at hlock
    obtain ⟨hfound, hok⟩ := hlock
    simp only [Bool.and_eq_true, decide_eq_true_eq] at hok
    exact ⟨lock, hfound, hok.1.1⟩

theorem applyToState_names {p : LockStepPayload} (hp : e.payload = .lockStep p)
    (h : applyToState host s e = .ok s') :
    s' = s ∨ ∃ lock, s.lockEvent? = some lock ∧ lock.id = p.lockEventId := by
  rw [applyToState_consensus (by rw [hp]; rfl)] at h
  simp only [bind_eq_ok] at h
  obtain ⟨-, -, h⟩ := h
  unfold applyConsensus at h
  split_ifs at h
  · exact Or.inl (Except.ok.inj h).symm
  · simp only [bind_eq_ok, guardErr_eq_ok] at h
    obtain ⟨-, hopen, due, hdue, h⟩ := h
    have hdispatch {live : EscrowState} (hchain : live.eventChain = s.eventChain)
        (h : dispatch host live e = .ok s') :
        ∃ lock, s.lockEvent? = some lock ∧ lock.id = p.lockEventId := by
      unfold dispatch at h
      rw [hp] at h
      obtain ⟨lock, hfound, hnames⟩ := handleLockStep_names h
      refine ⟨lock, ?_, hnames⟩
      unfold EscrowState.lockEvent? at hfound ⊢
      rw [← hchain]
      exact hfound
    rcases expiryGate_cases hdue (by simpa using hopen) with ⟨rfl, -⟩ | ⟨next, hexpires, rfl⟩
    · exact Or.inr (hdispatch rfl h)
    · rw [if_pos (Or.inr (by rw [ParsedEscrowEvent.kind, hp]; rfl))] at h
      exact Or.inr (hdispatch hexpires.eventChain h)

theorem Handled.acceptEventId (h : Handled host s e s') :
    s'.lock.acceptEventId = s.lock.acceptEventId ∨
      ∃ p, e.payload = .lockStep p ∧ s'.lock.acceptEventId = some e.id := by
  cases h
  case planRepeated => exact Or.inl rfl
  case locked clone =>
    have hsame := congrArg LockDetails.acceptEventId clone.lock
    exact Or.inl hsame
  case lockAccepted payload _ _ _ _ _ _ => exact Or.inr ⟨_, payload, rfl⟩
  case sharesReleased clone =>
    have hsame := congrArg LockDetails.acceptEventId clone.lock
    exact Or.inl hsame
  case voted clone count =>
    obtain ⟨votes, acting, rfl⟩ := countVote_eq_ok count
    exact Or.inl (congrArg LockDetails.acceptEventId clone.lock)
  case stalled clone => exact Or.inl (congrArg LockDetails.acceptEventId clone.lock)
  all_goals
    rename_i clone
    exact Or.inl (congrArg LockDetails.acceptEventId clone.lock)

theorem Stepped.acceptEventId (h : Stepped host s e s') :
    s'.lock.acceptEventId = s.lock.acceptEventId ∨
      ∃ p, e.payload = .lockStep p ∧ s'.lock.acceptEventId = some e.id := by
  have expired {next : EscrowState} (expires : Expires s e next) :
      next.lock.acceptEventId = s.lock.acceptEventId := by
    obtain ⟨copy, clone, rfl⟩ := expires.eq
    exact congrArg LockDetails.acceptEventId clone.lock
  cases h with
  | echoed => exact Or.inl rfl
  | premium _ _ clone => exact Or.inl (congrArg LockDetails.acceptEventId clone.lock)
  | settlement _ _ clone => exact Or.inl (congrArg LockDetails.acceptEventId clone.lock)
  | expired _ expires => exact Or.inl (expired expires)
  | handled _ _ _ _ handled => exact handled.acceptEventId
  | lateHandled _ _ expires handled =>
    exact handled.acceptEventId.imp_left fun h => h.trans (expired expires)

theorem Handled.notesHash_of_lock (h : Handled host s e s') (hkind : e.kind = .lock) :
    ∃ p, e.payload = .lock p ∧ s'.lock.notesHash = p.notesHash := by
  cases h
  case locked payload _ _ _ _ _ _ _ _ _ _ _ _ => exact ⟨_, payload, rfl⟩
  all_goals simp_all [ParsedEscrowEvent.kind, EscrowPayload.kind]

/-! ### States made of events -/

structure Sourced (events : List ParsedEscrowEvent) (s : EscrowState) : Prop where
  lock : ∀ lock, s.lockEvent? = some lock → lock ∈ events
  notes : ∀ lock p, s.lockEvent? = some lock → lock.payload = .lock p →
    s.lock.notesHash = p.notesHash
  accept : ∀ a, truthyKey s.lock.acceptEventId = some a → ∃ e ∈ events, ∃ p lock, e.id = a ∧
    e.payload = .lockStep p ∧ s.lockEvent? = some lock ∧ p.lockEventId = lock.id

variable {events' : List ParsedEscrowEvent}

theorem Sourced.mono (h : Sourced events s) (hsub : events ⊆ events') : Sourced events' s := by
  refine ⟨fun lock hlock => hsub (h.lock lock hlock), h.notes, fun a ha => ?_⟩
  obtain ⟨e, he, hrest⟩ := h.accept a ha
  exact ⟨e, hsub he, hrest⟩

theorem sourced_of_unfunded (hlock : s.hasLock = false) (hempty : s.lock = {}) :
    Sourced events s := by
  have hnone : s.lockEvent? = none := by
    rw [EscrowState.lockEvent?, List.find?_eq_none]
    intro v hv hkind
    rw [hasLock_iff.mpr ⟨v, hv, by simpa using hkind⟩] at hlock
    cases hlock
  refine ⟨fun lock h => ?_, fun lock p h => ?_, fun a ha => ?_⟩
  · rw [hnone] at h
    cases h
  · rw [hnone] at h
    cases h
  · rw [hempty] at ha
    cases ha

theorem Sourced.step (hs : Reached host s) (h : Sourced events s) (he : e ∈ events)
    (happly : applyToState host s e = .ok s') : Sourced events s' := by
  have hstep := applyToState_stepped happly
  have hs' : Reached host s' := Reachable.next hs happly
  by_cases hlock' : s'.hasLock = true
  swap
  · exact sourced_of_unfunded (by simpa using hlock') (hs'.lock_of_unfunded (by simpa using hlock'))
  obtain ⟨lock', hlock'⟩ : ∃ lock', s'.lockEvent? = some lock' := by
    obtain ⟨v, hv, hkind⟩ := hasLock_iff.mp hlock'
    exact Option.isSome_iff_exists.mp (List.find?_isSome.mpr ⟨v, hv, by simpa using hkind⟩)
  by_cases hlock : s.hasLock = true
  · -- The LOCK stands: its notes are kept, and only a LOCK_STEP that names it accepts it.
    obtain ⟨lock, hfound⟩ : ∃ lock, s.lockEvent? = some lock := by
      obtain ⟨v, hv, hkind⟩ := hasLock_iff.mp hlock
      exact Option.isSome_iff_exists.mp (List.find?_isSome.mpr ⟨v, hv, by simpa using hkind⟩)
    obtain rfl : lock = lock' := Option.some.inj ((hstep.lockEvent hfound).symm.trans hlock')
    refine ⟨fun v hv => ?_, fun v p hv hp => ?_, fun a ha => ?_⟩
    · obtain rfl := Option.some.inj (hlock'.symm.trans hv)
      exact h.lock lock hfound
    · obtain rfl := Option.some.inj (hlock'.symm.trans hv)
      rw [((hs.funded hlock).frozen hstep).notesHash]
      exact h.notes lock p hfound hp
    · rcases hstep.acceptEventId with hsame | ⟨p, hp, hnew⟩
      · rw [hsame] at ha
        obtain ⟨v, hv, p, lock₀, hid, hp, hlock₀, hnames⟩ := h.accept a ha
        obtain rfl := Option.some.inj (hfound.symm.trans hlock₀)
        exact ⟨v, hv, p, lock, hid, hp, hlock', hnames⟩
      · have ha' : a = e.id := by
          rw [hnew, truthyKey_some (k := e.id) e.raw.id_ne] at ha
          exact (Option.some.inj ha).symm
        rcases applyToState_names hp happly with rfl | ⟨lock₀, hlock₀, hnames⟩
        · exact h.accept a ha
        · obtain rfl := Option.some.inj (hfound.symm.trans hlock₀)
          exact ⟨e, he, p, lock, ha'.symm, hp, hlock', hnames.symm⟩
  · -- The event is the LOCK.
    have hunfunded : s.hasLock = false := by simpa using hlock
    obtain ⟨hkind, -, -, hhandled⟩ := hstep.of_new_lock hunfunded (by
      exact hasLock_iff.mpr ⟨lock', List.mem_of_find?_eq_some hlock',
        by simpa using List.find?_some hlock'⟩)
    obtain ⟨p, hp, hnotes⟩ := hhandled.notesHash_of_lock hkind
    obtain rfl : lock' = e := by
      have hmem := List.mem_of_find?_eq_some hlock'
      have hlocks : lock'.kind = .lock := by simpa using List.find?_some hlock'
      rcases hstep.eventChain with hsame | hpush
      · rw [hsame] at hmem
        rw [hasLock_iff.mpr ⟨lock', hmem, hlocks⟩] at hunfunded
        cases hunfunded
      · rw [hpush, List.mem_append, List.mem_singleton] at hmem
        rcases hmem with hmem | rfl
        · rw [hasLock_iff.mpr ⟨lock', hmem, hlocks⟩] at hunfunded
          cases hunfunded
        · rfl
    refine ⟨fun v hv => ?_, fun v q hv hq => ?_, fun a ha => ?_⟩
    · obtain rfl := Option.some.inj (hlock'.symm.trans hv)
      exact he
    · obtain rfl := Option.some.inj (hlock'.symm.trans hv)
      rw [hp] at hq
      cases hq
      exact hnotes
    · rcases hhandled.acceptEventId with hsame | ⟨q, hq, -⟩
      · rw [hsame, hs.lock_of_unfunded hunfunded] at ha
        cases ha
      · rw [hp] at hq
        cases hq

theorem Sourced.same_lock {lock lock' : ParsedEscrowEvent} {a : String} (h : Sourced events s)
    (h' : Sourced events s') (hids : ∀ v ∈ events, ∀ v' ∈ events, v.id = v'.id → v = v')
    (ha : truthyKey s.lock.acceptEventId = some a) (ha' : truthyKey s'.lock.acceptEventId = some a)
    (hlock : s.lockEvent? = some lock) (hlock' : s'.lockEvent? = some lock') : lock = lock' := by
  obtain ⟨e, he, p, v, hid, hp, hv, hnames⟩ := h.accept a ha
  obtain ⟨e', he', p', v', hid', hp', hv', hnames'⟩ := h'.accept a ha'
  obtain rfl := Option.some.inj (hlock.symm.trans hv)
  obtain rfl := Option.some.inj (hlock'.symm.trans hv')
  obtain rfl : e = e' := hids e he e' he' (hid.trans hid'.symm)
  rw [hp] at hp'
  cases hp'
  exact hids lock (h.lock lock hlock) lock' (h'.lock lock' hlock') (hnames.symm.trans hnames')

/-! ### Replays -/

structure MadeOf (host : Host) (events : List ParsedEscrowEvent) (s : EscrowState) : Prop where
  reached : Reached host s
  sourced : Sourced events s

theorem MadeOf.mono (h : MadeOf host events s) (hsub : events ⊆ events') : MadeOf host events' s :=
  ⟨h.reached, h.sourced.mono hsub⟩

theorem MadeOf.step (h : MadeOf host events s) (he : e ∈ events)
    (happly : applyToState host s e = .ok s') : MadeOf host events s' :=
  ⟨h.reached.next happly, h.sourced.step h.reached he happly⟩

theorem madeOf_liveFold {es : List ParsedEscrowEvent} (h : MadeOf host events s)
    (hes : es ⊆ events) : MadeOf host events (liveFold (applyToState host) s es) := by
  induction es generalizing s with
  | nil => exact h
  | cons e rest ih =>
    refine ih ?_ fun v hv => hes (List.mem_cons_of_mem e hv)
    cases happly : applyToState host s e with
    | error d =>
      rw [liveStep_of_error happly]
      exact h
    | ok next =>
      rw [liveStep_of_ok happly]
      exact h.step (hes List.mem_cons_self) happly

/-- What a replay starts from. -/
theorem madeOf_root {root : ParsedEscrowEvent} (h : applyEvent host none root = .ok s) :
    MadeOf host events s := by
  have hreached : Reached host s := .start ⟨root, h⟩
  refine ⟨hreached, ?_⟩
  obtain ⟨p, hp, hcreate⟩ := (applyEvent_none host).mp h
  have hborn := handleCreate_newborn hp hcreate
  exact sourced_of_unfunded hborn.hasLock hborn.lock

theorem madeOf_replay {creator : Option String} {r : Replayed}
    (h : replayEventChain host events creator = .ok r) : MadeOf host events r.state := by
  obtain ⟨root, rest, ignored, taken, hparts⟩ := replayWith_eq_ok.mp h
  obtain ⟨root', rest', s₀, hkept, hruns⟩ := replayRooted_starts hparts.replayed
  have hread : root' :: rest' ⊆ events := by
    rw [← hkept]
    exact fun v hv => selectTradeRoot_subset hparts.rooted (List.mem_filter.mp hv).1
  rw [hruns.final]
  exact madeOf_liveFold (madeOf_root hruns.start) fun v hv => hread (List.mem_cons_of_mem _ hv)

/-! ### The chain of a run -/

theorem Stepped.distinct (h : Stepped host s e s') (hs : (s.eventChain.map (·.id)).Nodup) :
    (s'.eventChain.map (·.id)).Nodup := by
  rcases h.eventChain with hsame | hpush
  · rwa [hsame]
  · by_cases hknown : s.hasEvent e.id = true
    · have hkept : s'.eventChain = s.eventChain := by
        cases h with
        | echoed => rfl
        | premium _ _ clone => exact clone.eventChain
        | settlement _ _ clone => exact clone.eventChain
        | expired _ expires => exact expires.eventChain
        | handled fresh => simp [fresh] at hknown
        | lateHandled fresh => simp [fresh] at hknown
      rwa [hkept]
    · have hnew : e.id ∉ s.eventChain.map (·.id) := by
        simpa [EscrowState.hasEvent] using hknown
      rw [hpush, List.map_append, List.map_singleton]
      exact List.nodup_append.mpr ⟨hs, List.nodup_singleton _, by grind⟩

theorem Reached.distinct (h : Reached host s) : (s.eventChain.map (·.id)).Nodup := by
  refine Reachable.invariant (I := fun s => (s.eventChain.map (·.id)).Nodup) (fun s hs => ?_)
    (fun s e s' hs h => (applyToState_stepped h).distinct hs) h
  obtain ⟨e, p, hborn⟩ := hs.newborn
  rw [hborn.eventChain]
  exact List.nodup_singleton _

theorem liveFold_eventChain (s : EscrowState) (es : List ParsedEscrowEvent) :
    ∃ new, new.Sublist es ∧
      (liveFold (applyToState host) s es).eventChain = s.eventChain ++ new := by
  induction es generalizing s with
  | nil => exact ⟨[], List.Sublist.slnil, (List.append_nil _).symm⟩
  | cons e es ih =>
    rw [liveFold_cons]
    cases he : applyToState host s e with
    | error d =>
      obtain ⟨new, hsub, hchain⟩ := ih s
      rw [liveStep_of_error he]
      exact ⟨new, hsub.cons e, hchain⟩
    | ok s' =>
      obtain ⟨new, hsub, hchain⟩ := ih s'
      rw [liveStep_of_ok he, hchain]
      rcases (applyToState_stepped he).eventChain with hsame | hpush
      · exact ⟨new, hsub.cons e, by rw [hsame]⟩
      · exact ⟨e :: new, hsub.cons_cons e, by rw [hpush, List.append_assoc, List.singleton_append]⟩

/-- Whatever a client hears, it only adds to the chain of its trade: some of what it heard, in that
order, and no id twice.  The LOCK stays the one that it is. -/
theorem history_append_only (host : Host) (s : EscrowState) (es : List ParsedEscrowEvent)
    (hs : Reached host s) :
    ∃ new, new.Sublist es ∧
      (liveFold (applyToState host) s es).eventChain = s.eventChain ++ new ∧
      ((s.eventChain ++ new).map (·.id)).Nodup ∧
      ∀ lock, s.lockEvent? = some lock →
        (liveFold (applyToState host) s es).lockEvent? = some lock := by
  obtain ⟨new, hsub, hchain⟩ := @liveFold_eventChain host s es
  have hreached : Reached host (liveFold (applyToState host) s es) :=
    Run.fold hs fun _ _ _ => trivial
  refine ⟨new, hsub, hchain, hchain ▸ hreached.distinct, fun lock hlock => ?_⟩
  unfold EscrowState.lockEvent? at hlock ⊢
  rw [hchain, List.find?_append, hlock, Option.some_or]

/-- A funded trade that hears its LOCK again. -/
theorem history_append_only_sample : ∃ s : EscrowState, s.hasLock = true ∧
    ∃ new, new.Sublist [sampleLock] ∧ ((s.eventChain ++ new).map (·.id)).Nodup := by
  have hrun : (liveTrade silentHost sampleCreate [sampleJoin, sampleLock]).any
      (fun s => s.hasLock) = true := by
    decide +kernel
  obtain ⟨s, hs, hlock⟩ := (Option.any_eq_true _ _).mp hrun
  obtain ⟨new, hsub, -, hnodup, -⟩ :=
    history_append_only silentHost s [sampleLock] (liveTrade_reached silentHost hs)
  exact ⟨s, hlock, new, hsub, hnodup⟩

end ChamaEscrow
