import ChamaEscrow.Engine.Effects

/-!
# The lifecycle of a trade

The published machine of a trade is the relation `Published` on statuses.  `Stepped.moves` says that
an accepted event keeps the status or takes one published step, whatever the handler and whatever
the deadline adds to it; a rank on statuses then bounds the changes of any run.

Two properties of whole runs come with a condition on the steps.

* `custody_first`: a settled trade was funded, unless a RESOLVE was applied to an expired trade that
  nobody funded.
* `published_machine`: a subscription completes a trade only with its last period, unless a release
  was counted for an index between two periods.
-/

namespace ChamaEscrow

open Js Library

variable {host : Host} {s s' : EscrowState} {e : ParsedEscrowEvent}

/-! ### The published machine -/

namespace EscrowStatus

inductive Published : EscrowStatus → EscrowStatus → Prop
  | lock : Published .created .locked
  | cancel : Published .created .cancelled
  | lapse : Published .created .expired
  | approve : Published .locked .approved
  | expire : Published .locked .expired
  | lastPeriod : Published .locked .completed
  | heal : Published .expired .approved
  | claim : Published .approved .claimed
  | payout : Published .approved .completed
  | complete : Published .claimed .completed

def rank : EscrowStatus → ℕ
  | created => 0
  | locked => 1
  | expired => 2
  | approved => 3
  | claimed => 4
  | completed | cancelled => 5

theorem rank_le (a : EscrowStatus) : a.rank ≤ 5 := by
  cases a <;> decide

variable {a b : EscrowStatus}

theorem Published.rank_lt (h : Published a b) : a.rank < b.rank := by
  cases h <;> decide

theorem Published.not_isTrulyTerminal (h : Published a b) : a.isTrulyTerminal = false := by
  cases h <;> rfl

theorem Published.ne_created (h : Published a b) : b ≠ created := by
  cases h <;> decide

def isSettling (a : EscrowStatus) : Bool := a = approved || a = claimed || a = completed

theorem Published.isSettling (h : Published a b)
    (ha : a.isSettling = true) : b.isSettling = true := by
  cases h <;> first | rfl | cases ha

end EscrowStatus

open EscrowStatus (Published)

/-! ### Moves -/

inductive Moves (s : EscrowState) (e : ParsedEscrowEvent) (s' : EscrowState) : Prop
  | stays (status : s'.status = s.status)
  | lock (before : s.status = .created) (after : s'.status = .locked) (funded : s'.hasLock = true)
  | cancel (before : s.status = .created) (after : s'.status = .cancelled)
  | expire (before : s.status = .created ∨ s.status = .locked) (after : s'.status = .expired)
  | resolve (p : ResolvePayload) (payload : e.payload = .resolve p)
      (before : s.status = .locked ∨ s.status = .expired) (votes : resolveError s.votes p = none)
      (fresh : s.hasEvent e.id = false) (after : s'.status = .approved)
  | claim (before : s.status = .approved) (after : s'.status = .claimed)
  | complete (before : s.status = .claimed ∨ (s.status = .approved ∧ s.lock.onchain.isSome))
      (after : s'.status = .completed)
  | lastPeriod (p : PeriodReleasePayload) (sub : SubscriptionMeta)
      (payload : e.payload = .periodRelease p) (before : s.status = .locked)
      (due : isPastDeadline s e = false) (fresh : s.hasEvent e.id = false)
      (subscribed : s.subscription = some sub) (valid : periodError sub p = none)
      (done : sub.totalPeriods ≤ .ofInt (sub.copy.release p).releasedCount)
      (released : s'.subscription = some (sub.copy.release p)) (after : s'.status = .completed)

theorem Handled.moves (hfresh : s.hasEvent e.id = false)
    (hdue : isPastDeadline s e = false ∨ s.status = .expired) (h : Handled host s e s') :
    Moves s e s' := by
  cases h
  case planRepeated => exact .stays rfl
  case cancelled status _ _ => exact .cancel status rfl
  case locked payload _ _ status _ _ _ _ _ _ _ _ clone =>
    refine .lock status rfl (hasLock_iff.mpr ⟨e, ?_, ?_⟩)
    · exact List.mem_append_right _ (List.mem_singleton_self e)
    · simp [ParsedEscrowEvent.kind, payload, EscrowPayload.kind]
  case voted clone count =>
    obtain ⟨votes, acting, rfl⟩ := countVote_eq_ok count
    exact .stays clone.status
  case resolved payload _ status votes _ => exact .resolve _ payload status votes hfresh rfl
  case claimed status _ _ _ _ => exact .claim status rfl
  case completed status _ _ _ => exact .complete status rfl
  case stalled clone => exact .stays clone.status
  case periodReleased p sub next payload status subscribed valid _ clone =>
    by_cases hdone : sub.totalPeriods ≤ .ofInt (sub.copy.release p).releasedCount
    · have hdue : isPastDeadline s e = false := by simpa [status] using hdue
      exact .lastPeriod p sub payload status hdue hfresh subscribed valid hdone rfl (if_pos hdone)
    · exact .stays ((if_neg hdone).trans clone.status)
  all_goals
    rename_i clone
    exact .stays clone.status

theorem Handled.status_eq (h : Handled host s e s') (hkind : e.kind = .vote ∨ e.kind = .lockStep) :
    s'.status = s.status := by
  cases h
  case voted clone count =>
    obtain ⟨votes, acting, rfl⟩ := countVote_eq_ok count
    exact clone.status
  case lockAccepted clone => exact clone.status
  case sharesReleased clone => exact clone.status
  all_goals simp_all [ParsedEscrowEvent.kind, EscrowPayload.kind]

theorem Stepped.moves (h : Stepped host s e s') : Moves s e s' := by
  cases h with
  | echoed => exact .stays rfl
  | premium _ _ clone => exact .stays clone.status
  | settlement _ _ clone => exact .stays clone.status
  | expired _ expires => exact .expire expires.status expires.status_eq
  | handled fresh _ due _ handled => exact handled.moves fresh due
  | lateHandled _ kind expires handled =>
    exact .expire expires.status ((handled.status_eq kind).trans expires.status_eq)

theorem Moves.published (h : Moves s e s') :
    s'.status = s.status ∨ Published s.status s'.status := by
  cases h with
  | stays status => exact Or.inl status
  | lock before after _ => rw [before, after]; exact Or.inr .lock
  | cancel before after => rw [before, after]; exact Or.inr .cancel
  | expire before after =>
    rw [after]
    rcases before with before | before <;> rw [before]
    · exact Or.inr .lapse
    · exact Or.inr .expire
  | resolve _ _ before _ _ after =>
    rw [after]
    rcases before with before | before <;> rw [before]
    · exact Or.inr .approve
    · exact Or.inr .heal
  | claim before after => rw [before, after]; exact Or.inr .claim
  | complete before after =>
    rw [after]
    rcases before with before | ⟨before, -⟩ <;> rw [before]
    · exact Or.inr .complete
    · exact Or.inr .payout
  | lastPeriod _ _ _ before _ _ _ _ _ _ after => rw [before, after]; exact Or.inr .lastPeriod

theorem Stepped.not_open (h : Stepped host s e s') (hopen : s.status ≠ .created) :
    s'.status ≠ .created := by
  rcases h.moves.published with hsame | hmoves
  · rwa [hsame]
  · exact hmoves.ne_created

/-! ### Custody before settlement -/

/-- A RESOLVE that settles an expired trade which nobody funded. -/
structure ResolvesUnfunded (s : EscrowState) (e : ParsedEscrowEvent) : Prop where
  status : s.status = .expired
  unfunded : s.hasLock = false
  fresh : s.hasEvent e.id = false
  agreed : ∃ p, e.payload = .resolve p ∧ resolveError s.votes p = none

/-- A trade that is locked or settled holds an accepted LOCK. -/
def CustodyFirst (s : EscrowState) : Prop :=
  s.status = .locked ∨ s.status.isSettling = true → s.hasLock = true

theorem Newborn.custodyFirst {p : CreatePayload} (h : Newborn e p s) : CustodyFirst s := by
  intro hs
  rw [h.status] at hs
  rcases hs with hs | hs <;> cases hs

theorem CustodyFirst.step (hs : CustodyFirst s) (h : Stepped host s e s')
    (hC : ¬ ResolvesUnfunded s e) : CustodyFirst s' := by
  have settled {a : EscrowStatus} (hstatus : s.status = a)
      (ha : a = .locked ∨ a.isSettling = true) :
      s'.hasLock = true := by
    refine h.hasLock (hs ?_)
    rwa [hstatus]
  intro hs'
  cases h.moves with
  | stays status => exact h.hasLock (hs (by rwa [← status]))
  | lock _ _ funded => exact funded
  | cancel _ after => rw [after] at hs'; rcases hs' with hs' | hs' <;> cases hs'
  | expire _ after => rw [after] at hs'; rcases hs' with hs' | hs' <;> cases hs'
  | resolve p payload before votes fresh after =>
    rcases before with before | before
    · exact settled before (Or.inl rfl)
    · by_contra hnone
      refine hC ⟨before, ?_, fresh, p, payload, votes⟩
      by_contra hlock
      exact hnone (h.hasLock (by simpa using hlock))
  | claim before _ => exact settled before (Or.inr rfl)
  | complete before _ =>
    rcases before with before | ⟨before, -⟩
    · exact settled before (Or.inr rfl)
    · exact settled before (Or.inr rfl)
  | lastPeriod _ _ _ before => exact settled before (Or.inl rfl)

theorem RunsUnder.custodyFirst
    (h : RunsUnder host (fun s e => ¬ ResolvesUnfunded s e) s) : CustodyFirst s := by
  refine Run.invariant (fun s hs => ?_) (fun s e s' hC hs h => ?_) h
  · obtain ⟨e, p, hborn⟩ := hs.newborn
    exact hborn.custodyFirst
  · exact hs.step (applyToState_stepped h) hC

theorem Stepped.expired_unfunded (h : Stepped host s e s') (hC : ¬ ResolvesUnfunded s e)
    (hstatus : s.status = .expired) (hunfunded : s.hasLock = false) :
    s'.status = .expired ∧ s'.hasLock = false := by
  have hlock : s'.hasLock = false := by
    by_contra hnew
    obtain ⟨hkind, -, -, hhandled⟩ := h.of_new_lock hunfunded (by simpa using hnew)
    have := (hhandled.of_lock hkind).1
    rw [hstatus] at this
    cases this
  refine ⟨?_, hlock⟩
  cases h.moves with
  | stays status => exact status.trans hstatus
  | expire _ after => exact after
  | resolve p payload _ votes fresh _ =>
    exact absurd ⟨hstatus, hunfunded, fresh, p, payload, votes⟩ hC
  | complete before _ => rcases before with before | ⟨before, -⟩ <;> simp [hstatus] at before
  | lock before | cancel before | claim before | lastPeriod _ _ _ before => simp [hstatus] at before

theorem Handled.of_resolve {p : ResolvePayload} (h : Handled host s e s')
    (hp : e.payload = .resolve p) :
    s'.status = .approved ∧ s'.eventChain = s.eventChain ++ [e] := by
  cases h
  case resolved clone => exact ⟨rfl, clone.push⟩
  all_goals simp_all

theorem Stepped.of_resolvesUnfunded (h : Stepped host s e s') (hC : ResolvesUnfunded s e) :
    s'.status = .approved ∧ s'.hasLock = false := by
  obtain ⟨p, hp, -⟩ := hC.agreed
  have hkind : e.kind = .resolve := by rw [ParsedEscrowEvent.kind, hp, EscrowPayload.kind]
  have hhandled := h.reaches hC.fresh (Or.inr hC.status) (by simp [hkind])
  obtain ⟨hstatus, hchain⟩ := hhandled.of_resolve hp
  refine ⟨hstatus, ?_⟩
  rw [EscrowState.hasLock, hchain, List.any_append, ← EscrowState.hasLock, hC.unfunded]
  simp [hkind]

/-- No settlement without custody, in every run that applies no RESOLVE to an expired trade nobody
funded; one such RESOLVE settles the trade without custody. -/
theorem settled_funded (host : Host) :
    (∀ s, RunsUnder host (fun s e => ¬ ResolvesUnfunded s e) s →
      (s.status = .approved ∨ s.status = .claimed ∨ s.status = .completed) →
        ∃ v ∈ s.eventChain, v.kind = .lock) ∧
      (∀ s, s.status = .expired → s.hasLock = false →
        ∀ t, Run (applyToState host) (· = s) (fun s e => ¬ ResolvesUnfunded s e) t →
          t.status = .expired ∧ t.hasLock = false) ∧
      ∀ s e s', ResolvesUnfunded s e → applyToState host s e = .ok s' →
        s'.status = .approved ∧ s'.hasLock = false := by
  refine ⟨?_, ?_, ?_⟩
  · intro s hs hsettled
    refine hasLock_iff.mp (hs.custodyFirst (Or.inr ?_))
    rcases hsettled with h | h | h <;> rw [h] <;> rfl
  · intro s hstatus hunfunded t ht
    refine Run.invariant (I := fun t => t.status = .expired ∧ t.hasLock = false) ?_ ?_ ht
    · rintro _ rfl
      exact ⟨hstatus, hunfunded⟩
    · intro t e t' hC ht h
      exact (applyToState_stepped h).expired_unfunded hC ht.1 ht.2
  · intro s e s' hC h
    exact (applyToState_stepped h).of_resolvesUnfunded hC

/-! ### The last period -/

namespace SubscriptionMeta

structure Counted (sub : SubscriptionMeta) : Prop where
  bound : sub.periodStatuses.periods.length < 2 ^ 32
  total : sub.totalPeriods = .ofInt sub.periodStatuses.periods.length
  released : sub.releasedCount = sub.periodStatuses.periods.count .released

variable {sub : SubscriptionMeta}

theorem Counted.copy (h : sub.Counted) : sub.copy.Counted :=
  ⟨h.bound, h.total, h.released⟩

theorem Counted.exact (h : sub.Counted) :
    sub.periodStatuses.periods.length ≤ JsNumber.maxExact := by
  have := h.bound
  simp only [JsNumber.maxExact]
  omega

variable {p : PeriodReleasePayload}

theorem Counted.pending (h : sub.Counted)
    {i : ℕ} (hvalid : periodError sub p = none) (hi : p.periodIndex.toNat? = some i) :
    sub.periodStatuses.periods[i]? = some .pending := by
  unfold periodError at hvalid
  split_ifs at hvalid with hrange
  have hlt : i < sub.periodStatuses.periods.length := by
    by_contra hge
    refine hrange (Or.inr ?_)
    rw [h.total, JsNumber.ofInt_natCast h.exact, JsNumber.toNat?_eq_some hi, JsNumber.fin_le_fin]
    exact_mod_cast not_lt.mp hge
  simp only [PeriodStatuses.at?, hi, List.getElem?_eq_getElem hlt] at hvalid
  rw [List.getElem?_eq_getElem hlt]
  cases hstatus : sub.periodStatuses.periods[i] with
  | pending => rfl
  | released => simp [hstatus] at hvalid
  | disputed => simp [hstatus] at hvalid

theorem release_periods {i : ℕ} (hi : p.periodIndex.toNat? = some i) :
    (sub.copy.release p).periodStatuses.periods = sub.periodStatuses.periods.set i .released := by
  simp [release, SubscriptionMeta.copy, PeriodStatuses.copy, PeriodStatuses.setAt, hi]

theorem Counted.release (h : sub.Counted)
    {i : ℕ} (hvalid : periodError sub p = none) (hi : p.periodIndex.toNat? = some i) :
    (sub.copy.release p).Counted := by
  have hpending := h.pending hvalid hi
  obtain ⟨hlt, hget⟩ := List.getElem?_eq_some_iff.mp hpending
  refine ⟨?_, ?_, ?_⟩
  · rw [release_periods hi, List.length_set]
    exact h.bound
  · rw [release_periods hi, List.length_set]
    exact h.total
  · rw [release_periods hi, List.count_set hlt, hget]
    simp [SubscriptionMeta.release, SubscriptionMeta.copy, h.released]

theorem Counted.all_released (h : sub.Counted)
    (hdone : sub.totalPeriods ≤ .ofInt sub.releasedCount) :
    ∀ status ∈ sub.periodStatuses.periods, status = .released := by
  have hle : sub.periodStatuses.periods.count .released ≤ sub.periodStatuses.periods.length :=
    List.count_le_length
  rw [h.total, h.released, JsNumber.ofInt_le_ofInt h.exact (hle.trans h.exact)] at hdone
  intro status hmem
  exact (List.count_eq_length.mp (le_antisymm hle hdone) status hmem).symm

end SubscriptionMeta

/-- A release counted for an index between two periods, which is the position of none. -/
structure CountsBetween (s : EscrowState) (e : ParsedEscrowEvent) : Prop where
  status : s.status = .locked
  due : isPastDeadline s e = false
  fresh : s.hasEvent e.id = false
  between : ∃ p sub, e.payload = .periodRelease p ∧ s.subscription = some sub ∧
    periodError sub p = none ∧ p.periodIndex.toNat? = none

def ReleasesLast (s : EscrowState) (e : ParsedEscrowEvent) (s' : EscrowState) : Prop :=
  ∃ p sub sub' i, e.payload = .periodRelease p ∧ s.subscription = some sub ∧
    s'.subscription = some sub' ∧ p.periodIndex = .fin (i : ℕ) ∧
    sub.periodStatuses.periods[i]? = some .pending ∧
    sub'.periodStatuses.periods = sub.periodStatuses.periods.set i .released ∧
    ∀ status ∈ sub'.periodStatuses.periods, status = .released

def CountedPeriods (s : EscrowState) : Prop := ∀ sub, s.subscription = some sub → sub.Counted

theorem CountedPeriods.copy (hs : CountedPeriods s)
    (h : s'.subscription = s.subscription.map SubscriptionMeta.copy) : CountedPeriods s' := by
  intro sub hsub
  rw [h, Option.map_eq_some_iff] at hsub
  obtain ⟨sub, hsub, rfl⟩ := hsub
  exact (hs sub hsub).copy

theorem arrayLength_eq_ok {a : JsNumber} {n : ℕ} (h : arrayLength a = .ok n) :
    a = .fin n ∧ n < 2 ^ 32 := by
  unfold arrayLength at h
  split at h
  · rename_i hn
    split_ifs at h with hlt
    obtain rfl := Except.ok.inj h
    exact ⟨JsNumber.toNat?_eq_some hn, hlt⟩
  · cases h

theorem Handled.countedPeriods (hs : CountedPeriods s) (hfresh : s.hasEvent e.id = false)
    (hdue : isPastDeadline s e = false ∨ s.status = .expired) (hC : ¬ CountsBetween s e)
    (h : Handled host s e s') : CountedPeriods s' := by
  cases h
  case planRepeated => exact hs
  case subscribed length clone =>
    intro sub hsub
    obtain rfl := Option.some.inj hsub
    obtain ⟨htotal, hlt⟩ := arrayLength_eq_ok length
    refine ⟨?_, ?_, ?_⟩
    · simpa using hlt
    · rw [List.length_replicate, JsNumber.ofInt_natCast, htotal]
      simp only [JsNumber.maxExact]
      omega
    · simp [List.count_replicate]
  case voted clone count =>
    obtain ⟨votes, acting, rfl⟩ := countVote_eq_ok count
    exact hs.copy clone.subscription
  case stalled clone => exact hs.copy clone.subscription
  case periodReleased p sub next payload status subscribed valid _ clone =>
    intro sub' hsub
    obtain rfl := Option.some.inj hsub
    have hdue : isPastDeadline s e = false := by simpa [status] using hdue
    cases hi : p.periodIndex.toNat? with
    | none => exact absurd ⟨status, hdue, hfresh, p, sub, payload, subscribed, valid, hi⟩ hC
    | some i => exact (hs sub subscribed).release valid hi
  all_goals
    rename_i clone
    exact hs.copy clone.subscription

theorem Stepped.countedPeriods (hs : CountedPeriods s) (hC : ¬ CountsBetween s e)
    (h : Stepped host s e s') : CountedPeriods s' := by
  cases h with
  | echoed => exact hs
  | premium _ _ clone => exact hs.copy clone.subscription
  | settlement _ _ clone => exact hs.copy clone.subscription
  | expired _ expires =>
    obtain ⟨copy, clone, rfl⟩ := expires.eq
    exact hs.copy clone.subscription
  | handled fresh _ due _ handled => exact handled.countedPeriods hs fresh due hC
  | @lateHandled live _ fresh _ expires handled =>
    have hexpired := expires.status_eq
    refine handled.countedPeriods ?_ ?_ (Or.inr hexpired) fun h => ?_
    · obtain ⟨copy, clone, rfl⟩ := expires.eq
      exact hs.copy clone.subscription
    · rw [EscrowState.hasEvent, expires.eventChain]
      exact fresh
    · have := h.status
      rw [hexpired] at this
      cases this

theorem Newborn.countedPeriods {p : CreatePayload} (h : Newborn e p s) : CountedPeriods s := by
  intro sub hsub
  rw [h.subscription] at hsub
  cases hsub

theorem RunsUnder.countedPeriods (h : RunsUnder host (fun s e => ¬ CountsBetween s e) s) :
    CountedPeriods s := by
  refine Run.invariant (fun s hs => ?_) (fun s e s' hC hs h => ?_) h
  · obtain ⟨e, p, hborn⟩ := hs.newborn
    exact hborn.countedPeriods
  · exact (applyToState_stepped h).countedPeriods hs hC

theorem Moves.releasesLast (hs : CountedPeriods s) (hC : ¬ CountsBetween s e) (h : Moves s e s')
    (hlocked : s.status = .locked) (hdone : s'.status = .completed) : ReleasesLast s e s' := by
  cases h with
  | lastPeriod p sub payload _ due fresh subscribed valid done released _ =>
    cases hi : p.periodIndex.toNat? with
    | none => exact absurd ⟨hlocked, due, fresh, p, sub, payload, subscribed, valid, hi⟩ hC
    | some i =>
      have hsub := hs sub subscribed
      exact ⟨p, sub, _, i, payload, subscribed, released, JsNumber.toNat?_eq_some hi,
        hsub.pending valid hi, SubscriptionMeta.release_periods hi,
        (hsub.release valid hi).all_released done⟩
  | complete before => rcases before with before | ⟨before, -⟩ <;> simp [hlocked] at before
  | stays after => simp [hlocked, hdone] at after
  | lock _ after | cancel _ after | expire _ after | resolve _ _ _ _ _ after | claim _ after =>
    simp [hdone] at after

theorem Moves.onchain (h : Moves s e s') (happroved : s.status = .approved)
    (hdone : s'.status = .completed) : s.lock.onchain.isSome := by
  cases h with
  | complete before =>
    rcases before with before | ⟨-, honchain⟩
    · simp [happroved] at before
    · exact honchain
  | lastPeriod _ _ _ before => simp [happroved] at before
  | stays after => simp [happroved, hdone] at after
  | lock _ after | cancel _ after | expire _ after | resolve _ _ _ _ _ after | claim _ after =>
    simp [hdone] at after

theorem Stepped.absorbing (h : Stepped host s e s') (hs : s.status.isTrulyTerminal = true) :
    s'.status = s.status := by
  rcases h.moves.published with hsame | hmoves
  · exact hsame
  · rw [hmoves.not_isTrulyTerminal] at hs
    cases hs

/-- Every accepted event keeps the status or takes one step of the published machine, whose final
statuses are absorbing; a trade changes its status five times at most.  A trade is completed by its
last period only, in every run that counts no release between two periods. -/
theorem published_machine (host : Host) :
    (∀ s e s', RunsUnder host (fun s e => ¬ CountsBetween s e) s → ¬ CountsBetween s e →
      applyToState host s e = .ok s' →
        s'.status = s.status ∨ (Published s.status s'.status ∧
          (s.status = .locked → s'.status = .completed → ReleasesLast s e s') ∧
          (s.status = .approved → s'.status = .completed → s.lock.onchain.isSome))) ∧
      (∀ s es, s.status = .completed ∨ s.status = .cancelled →
        (liveFold (applyToState host) s es).status = s.status) ∧
      ∀ s es, changes (applyToState host) (fun s => s.status) s es ≤ 5 := by
  refine ⟨?_, ?_, ?_⟩
  · intro s e s' hs hC h
    have hmoves := (applyToState_stepped h).moves
    rcases hmoves.published with hsame | hpublished
    · exact Or.inl hsame
    · exact Or.inr ⟨hpublished, hmoves.releasesLast hs.countedPeriods hC, hmoves.onchain⟩
  · intro s es hfinal
    refine liveFold_invariant (I := fun t : EscrowState => t.status = s.status) ?_ rfl es
    intro t e t' ht h
    refine ((applyToState_stepped h).absorbing ?_).trans ht
    rw [ht]
    rcases hfinal with h | h <;> rw [h] <;> rfl
  · intro s es
    have hbound : s.status.rank + changes (applyToState host) (fun s => s.status) s es ≤
        (liveFold (applyToState host) s es).status.rank :=
      changes_le_rank EscrowStatus.rank (I := fun _ => True) (fun _ _ _ _ _ => trivial)
        (fun s e s' _ h => (applyToState_stepped h).moves.published.imp id fun h => h.rank_lt)
        trivial es
    have := (liveFold (applyToState host) s es).status.rank_le
    omega

/-! ### A sample trade -/

/-- A host whose checks all fail; an ecash trade without a circle asks it nothing. -/
def silentHost : Host where
  sha256Hex _ := ""
  bondAnnouncement _ := .ok none
  bondAddress _ _ _ := .error (.error "no bond")
  escrowAddress _ := .error (.error "no address")
  taprootAddress _ _ := .error (.error "no address")
  unsignedId _ := .error (.error "no transaction")
  inputs _ := .error (.error "no transaction")
  outputSats _ := .error (.error "no transaction")
  settlementVerifies _ _ _ _ := false
  hasValidSignature _ _ _ _ := false
  finalizes _ _ _ := false

def hexKey (c : Char) : String := String.ofList (List.replicate 64 c)

theorem hexKey_ne (c : Char) : hexKey c ≠ "" := by
  unfold hexKey
  rw [Ne, ← String.ofList_nil, String.ofList_inj]
  simp

theorem hexKey_injective {c d : Char} (h : hexKey c = hexKey d) : c = d := by
  have hhead := congrArg (fun s => s.toList.head?) h
  simpa [hexKey] using hhead

theorem sampleTime_ne (time : ℕ) : JsNumber.ofInt time ≠ .nan := JsNumber.ofInt_ne_nan time

def sampleEvent (id author : Char) (time : ℕ) (payload : EscrowPayload) : ParsedEscrowEvent where
  raw := {
    id := hexKey id
    pubkey := hexKey author
    createdAt := .ofInt time
    id_ne := hexKey_ne id
    pubkey_ne := hexKey_ne author
    createdAt_ne := sampleTime_ne time }
  payload
  escrowId := "sm_sample"

/-- The CREATE of a seller `a`, with one arbiter `c` in the pool and an hour to run. -/
def sampleCreate : ParsedEscrowEvent := sampleEvent '0' 'a' 1800000000 (.create {
  description := "coins"
  amountMsats := 1000000
  category := "p2p-trade"
  mintUrl := "https://mint"
  platformFeeBps := 0
  platformFeePubkey := hexKey 'd'
  expirySeconds := 3600
  communityArbiters := .arr [.str (hexKey 'c')]
  createdAt := 1800000000 })

/-- The JOIN of the buyer `b`. -/
def sampleJoin : ParsedEscrowEvent := sampleEvent '1' 'b' 1800000010 (.join {
  role := .buyer
  joinedAt := 1800000010 })

def sampleLock : ParsedEscrowEvent := sampleEvent '2' 'a' 1800000020 (.lock {
  notesHash := .str "notes"
  shares := .arr ([0, 1, 2].map fun i => .obj [("shareIndex", .num (.ofInt i))])
  sellerReceivesMsats := 1000000
  arbiterFeeMsats := 0
  buyerPubkey := hexKey 'b'
  arbiterPubkey := hexKey 'c'
  lockedAt := 1800000020 })

def sampleVote (id author : Char) (time : ℕ) (role : Role) (outcome : Outcome) :
    ParsedEscrowEvent :=
  sampleEvent id author time (.vote { outcome, role, votedAt := .ofInt time })

def sampleResolve (time : ℕ) (outcome : Outcome) : ParsedEscrowEvent :=
  sampleEvent '9' 'a' time (.resolve {
    outcome
    majority := [some .buyer, some .seller]
    resolvedAt := .ofInt time })

/-- A joined trade past its deadline, with two votes and a RESOLVE but no LOCK. -/
def unfundedEvents : List ParsedEscrowEvent := [sampleJoin,
  sampleVote '3' 'b' 1800004000 .buyer .refund, sampleVote '4' 'a' 1800004001 .seller .refund,
  sampleResolve 1800004002 .refund]

/-- The RESOLVE of the unfunded trade settles it without custody. -/
theorem unfunded_settles :
    ∃ s, liveTrade silentHost sampleCreate unfundedEvents = some s ∧ Reached silentHost s ∧
      s.status = .approved ∧ ¬ ∃ v ∈ s.eventChain, v.kind = .lock := by
  have hrun : (liveTrade silentHost sampleCreate unfundedEvents).any
      (fun s => s.status = .approved && !s.hasLock) = true := by
    decide +kernel
  obtain ⟨s, hs, h⟩ := (Option.any_eq_true _ _).mp hrun
  rw [Bool.and_eq_true, decide_eq_true_eq] at h
  refine ⟨s, hs, liveTrade_reached silentHost hs, h.1, fun hlock => ?_⟩
  rw [hasLock_iff.mpr hlock] at h
  simp at h

def fundedEvents : List ParsedEscrowEvent := [sampleJoin, sampleLock,
  sampleVote '3' 'b' 1800000030 .buyer .release, sampleVote '4' 'a' 1800000040 .seller .release]

theorem not_resolvesUnfunded_of_locked (hs : s.status = .locked) : ¬ ResolvesUnfunded s e := by
  intro h
  have := h.status
  rw [hs] at this
  cases this

theorem not_resolvesUnfunded_of_kind (hkind : e.kind ≠ .resolve) : ¬ ResolvesUnfunded s e := by
  intro h
  obtain ⟨p, hp, -⟩ := h.agreed
  exact hkind (by rw [ParsedEscrowEvent.kind, hp, EscrowPayload.kind])

/-- The funded trade is settled with its LOCK in the chain. -/
theorem settled_funded_sample :
    ∃ s : EscrowState, s.status = .approved ∧ ∃ v ∈ s.eventChain, v.kind = .lock := by
  have hrun : (liveTrade silentHost sampleCreate fundedEvents).any (fun s => s.status = .locked &&
      (liveStep (applyToState silentHost) s (sampleResolve 1800000050 .release)).status =
        .approved) = true := by
    decide +kernel
  obtain ⟨s, hs, h⟩ := (Option.any_eq_true _ _).mp hrun
  rw [Bool.and_eq_true, decide_eq_true_eq, decide_eq_true_eq] at h
  have hkinds : ∀ e ∈ fundedEvents, e.kind ≠ .resolve := by decide +kernel
  have hlocked : RunsUnder silentHost (fun s e => ¬ ResolvesUnfunded s e) s :=
    liveTrade_run silentHost hs fun s e he => not_resolvesUnfunded_of_kind (hkinds e he)
  exact ⟨_, h.2, (settled_funded silentHost).1 _
    (hlocked.live (not_resolvesUnfunded_of_locked h.1)) (Or.inl h.2)⟩

def sampleSubscribe : ParsedEscrowEvent := sampleEvent '5' 'a' 1800000015 (.subscribe {
  totalPeriods := 2
  periodAmountMsats := 500000
  periodDurationSeconds := 60
  startsAt := 1800000015 })

def sampleRelease (id : Char) (index : JsNumber) : ParsedEscrowEvent :=
  sampleEvent id 'b' 1800000030 (.periodRelease {
    periodIndex := index
    amountMsats := 500000
    releasedAt := 1800000030 })

def subscribedEvents (index : JsNumber) : List ParsedEscrowEvent :=
  [sampleJoin, sampleSubscribe, sampleLock, sampleRelease '6' index]

/-- Counting a release at one half completes the trade with its second period still pending. -/
theorem half_period_completes :
    ∃ s s', liveTrade silentHost sampleCreate (subscribedEvents (.fin (1 / 2))) = some s ∧
      Reached silentHost s ∧ applyToState silentHost s (sampleRelease '7' 0) = .ok s' ∧
      s.status = .locked ∧ s'.status = .completed ∧
      ¬ ReleasesLast s (sampleRelease '7' 0) s' := by
  have hrun : (liveTrade silentHost sampleCreate (subscribedEvents (.fin (1 / 2)))).any
      (fun s => s.status = .locked &&
        (applyToState silentHost s (sampleRelease '7' 0)).toOption.any fun s' =>
          s'.status = .completed && s'.subscription.any fun sub =>
            .pending ∈ sub.periodStatuses.periods) = true := by
    decide +kernel
  obtain ⟨s, hs, h⟩ := (Option.any_eq_true _ _).mp hrun
  rw [Bool.and_eq_true, decide_eq_true_eq] at h
  obtain ⟨hlocked, h⟩ := h
  obtain ⟨s', hstep, h⟩ := exists_ok_of_any h
  rw [Bool.and_eq_true, decide_eq_true_eq, Option.any_eq_true] at h
  obtain ⟨hdone, sub, hsub, hpending⟩ := h
  refine ⟨s, s', hs, liveTrade_reached silentHost hs, hstep, hlocked, hdone, ?_⟩
  rintro ⟨_, _, sub', _, -, -, hsub', -, -, -, hall⟩
  obtain rfl : sub' = sub := by simpa [hsub'] using hsub
  have := hall .pending (by simpa using hpending)
  cases this
theorem not_countsBetween (index : JsNumber) (hindex : index.toNat? ≠ none)
    (he : ∀ p, e.payload = .periodRelease p → p.periodIndex = index) : ¬ CountsBetween s e := by
  intro h
  obtain ⟨p, sub, hp, -, -, hnone⟩ := h.between
  rw [he p hp] at hnone
  exact hindex hnone

/-- Two releases at the two periods complete the sample trade with the last one. -/
theorem published_machine_sample :
    ∃ s s' : EscrowState, s.status = .locked ∧ s'.status = .completed ∧
      ReleasesLast s (sampleRelease '7' 1) s' := by
  have hrun : (liveTrade silentHost sampleCreate (subscribedEvents 0)).any
      (fun s => s.status = .locked &&
        (applyToState silentHost s (sampleRelease '7' 1)).toOption.any fun s' =>
          s'.status = .completed) = true := by
    decide +kernel
  obtain ⟨s, hs, h⟩ := (Option.any_eq_true _ _).mp hrun
  rw [Bool.and_eq_true, decide_eq_true_eq] at h
  obtain ⟨hlocked, h⟩ := h
  obtain ⟨s', hstep, h⟩ := exists_ok_of_any h
  rw [decide_eq_true_eq] at h
  have hC : ∀ s, ∀ e ∈ subscribedEvents 0, ¬ CountsBetween s e := by
    intro s e he
    refine not_countsBetween 0 (by decide +kernel) fun p hp => ?_
    simp only [subscribedEvents, List.mem_cons, List.not_mem_nil, or_false] at he
    rcases he with rfl | rfl | rfl | rfl <;> cases hp
    rfl
  have hC' : ¬ CountsBetween s (sampleRelease '7' 1) := by
    refine not_countsBetween 1 (by decide +kernel) fun p hp => ?_
    cases hp
    rfl
  rcases (published_machine silentHost).1 s _ s' (liveTrade_run silentHost hs hC) hC' hstep with
    hsame | ⟨-, hlast, -⟩
  · simp [hlocked, h] at hsame
  · exact ⟨s, s', hlocked, h, hlast hlocked h⟩
end ChamaEscrow
