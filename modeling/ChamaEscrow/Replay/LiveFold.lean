import ChamaEscrow.Engine.Replay
import ChamaEscrow.Trade.Lifecycle

/-!
# Replay and the live fold

Replay is a second code path to a trade's state: it roots the list, sets events aside and forgives
some rejections.  `replayStep_live` says what one of its steps does with the state, and
`foldlM_liveFold` carries that through the loop.

* `replay_liveFold`: without LOCK_STEPs, a successful replay ends in the state of the live fold that
  starts at the same CREATE and drops what is rejected.
-/

namespace ChamaEscrow

open Js Library

variable {host : Host} {creator : Option String} {events : List ParsedEscrowEvent}

/-! ### Rooting a list -/

theorem filterEvents_subset {check : ParsedEscrowEvent → Except JsError Bool}
    {kept : List ParsedEscrowEvent} (h : filterEvents check events = .ok kept) :
    kept ⊆ events := by
  induction events generalizing kept with
  | nil =>
    cases h
    simp
  | cons e rest ih =>
    simp only [filterEvents, bind_eq_ok, pure_eq_ok] at h
    obtain ⟨keep, -, later, hlater, rfl⟩ := h
    intro v hv
    split_ifs at hv
    · rcases List.mem_cons.mp hv with rfl | hv
      · exact List.mem_cons_self
      · exact List.mem_cons_of_mem _ (ih hlater hv)
    · exact List.mem_cons_of_mem _ (ih hlater hv)

theorem selectTradeRoot_subset {rooted : RootSelection}
    (h : selectTradeRoot host events creator = .ok rooted) : rooted.events ⊆ events := by
  unfold selectTradeRoot at h
  dsimp only at h
  split_ifs at h with hnone
  · cases h
    exact fun e he => he
  simp only [bind_eq_ok, js_eq_ok] at h
  obtain ⟨valid, hvalid, h⟩ := h
  split_ifs at h with hempty
  · simp only [bind_eq_ok, rejectIf_eq_ok] at h
    obtain ⟨-, -, h⟩ := h
    unfold rootAtCreator at h
    split at h <;> simp only [bind_eq_ok, pure_eq_ok] at h <;> obtain ⟨-, -, rfl⟩ := h
    · exact fun e he => (List.mem_filter.mp he).1
    · exact fun e he => he
  · simp only [pure_eq_ok] at h
    subst h
    intro e he
    rcases List.mem_append.mp he with he | he
    · exact (List.mem_filter.mp (filterEvents_subset hvalid
        ((List.mem_insertionSort _).mp he))).1
    · exact (List.mem_filter.mp he).1

/-! ### Lists without LOCK_STEPs -/

theorem lockSteps_eq_nil (h : ∀ e ∈ events, e.kind ≠ .lockStep) : lockSteps events = [] := by
  refine List.filterMap_eq_nil_iff.mpr fun e he => ?_
  split
  · rename_i p hp
    exact absurd (by rw [ParsedEscrowEvent.kind, hp]; rfl) (h e he)
  · rfl

theorem refusedLockSteps_setAside (h : ∀ e ∈ events, e.kind ≠ .lockStep)
    (released : Option (List String)) : (refusedLockSteps events released).setAside = [] := by
  have hsteps := lockSteps_eq_nil h
  cases released <;>
    simp [refusedLockSteps, withdrawnLocks, acceptors, hsteps, RefusedSteps.empty]

variable {released : List ParsedEscrowEvent → Step (Option (List String))}
  {root : ParsedEscrowEvent}

variable {refused : RefusedSteps}

theorem refusedSteps_setAside (h : ∀ e ∈ events, e.kind ≠ .lockStep)
    (hrefused : refusedSteps released root events = .ok refused) : refused.setAside = [] := by
  unfold refusedSteps at hrefused
  split_ifs at hrefused
  · cases hreleased : released events with
    | error d => rw [hreleased] at hrefused; cases hrefused
    | ok ids =>
      rw [hreleased] at hrefused
      cases hrefused
      exact refusedLockSteps_setAside h ids
  · cases hrefused
    rfl

/-! ### The loop -/

variable {t t' : ReplayProgress} {s : EscrowState} {ctx : ReplayContext}

/-- The two parts of a replay step: an accepted event has its predecessor in the read, and a
rejected one leaves the state. -/
theorem replayStep_live
    {e : ParsedEscrowEvent} (hs : t.state = some s) (h : replayStep host ctx t e = .ok t') :
    t'.state = some (liveStep (applyToState host) s e) := by
  unfold replayStep at h
  rw [hs, applyEvent_some] at h
  split at h
  · rename_i next hnext
    unfold acceptEvent at h
    simp only [bind_eq_ok, guardErr_eq_ok, pure_eq_ok] at h
    obtain ⟨-, -, rfl⟩ := h
    rw [liveStep_of_ok hnext]
  · cases h
  · rename_i error herror
    rw [liveStep_of_error herror]
    dsimp only at h
    unfold skipRejected at h
    simp only [bind_eq_ok, js_eq_ok] at h
    obtain ⟨decided, -, h⟩ := h
    cases decided with
    | fail => cases h
    | skip benign => cases h; exact hs
    | skipWithdrawn => cases h; exact hs
    | rejectLock code message => cases h; exact hs

theorem replayLoop_root {rest : List ParsedEscrowEvent} (ht : t.state = none)
    (h : replayLoop host ctx t (root :: rest) = .ok t') :
    ∃ s t₀, applyEvent host none root = .ok s ∧ t₀.state = some s ∧
      replayLoop host ctx t₀ rest = .ok t' := by
  unfold replayLoop at h
  rw [List.foldlM_cons, bind_eq_ok] at h
  obtain ⟨t₀, hstep, hrest⟩ := h
  unfold replayStep at hstep
  rw [ht] at hstep
  split at hstep
  · rename_i next hnext
    unfold acceptEvent at hstep
    simp only [bind_eq_ok, guardErr_eq_ok, pure_eq_ok] at hstep
    obtain ⟨-, -, rfl⟩ := hstep
    exact ⟨next, _, hnext, rfl, hrest⟩
  · cases hstep
  · cases hstep

variable {es : List ParsedEscrowEvent}

theorem replayLoop_live (ht : t.state = some s)
    (h : replayLoop host ctx t es = .ok t') : t'.state = some (liveFold (applyToState host) s es) :=
  foldlM_liveFold (R := fun t s => t.state = some s) (fun _ _ _ _ => replayStep_live) ht h

/-! ### The parts of a replay -/

structure ReplaysTo (host : Host) (creator : Option String)
    (released : List ParsedEscrowEvent → Step (Option (List String)))
    (events : List ParsedEscrowEvent) (root : ParsedEscrowEvent)
    (rest ignored : List ParsedEscrowEvent)
    (taken : RefusedSteps) (r : Replayed) : Prop where
  rooted : selectTradeRoot host events creator = .ok ⟨root :: rest, ignored⟩
  create : isCreate root = true
  refused : refusedSteps released root (root :: rest) = .ok taken
  replayed : replayRooted host (authorsOf .create events) (authorsOf .join events)
    ⟨root :: rest, ignored⟩ taken = .ok r

variable {rest ignored : List ParsedEscrowEvent}

theorem replayWith_of_rooted {taken : RefusedSteps}
    (hrooted : selectTradeRoot host events creator = .ok ⟨root :: rest, ignored⟩)
    (hcreate : isCreate root = true)
    (hrefused : refusedSteps released root (root :: rest) = .ok taken) :
    replayWith host creator released events =
      replayRooted host (authorsOf .create events) (authorsOf .join events)
        ⟨root :: rest, ignored⟩ taken := by
  have hsome : ¬ events.isEmpty = true := by
    intro hnone
    rw [List.isEmpty_iff.mp hnone] at hrooted
    cases hrooted
  unfold replayWith
  rw [if_neg hsome, hrooted, ok_bind]
  dsimp only
  rw [rejectIf, if_neg (by simp [hcreate]), ok_bind, hrefused, ok_bind]

variable {r : Replayed}

theorem replayWith_eq_ok : replayWith host creator released events = .ok r ↔
      ∃ root rest ignored refused,
        ReplaysTo host creator released events root rest ignored refused r := by
  constructor
  · intro h
    unfold replayWith at h
    split_ifs at h
    rw [bind_eq_ok] at h
    obtain ⟨⟨rooted, ignored⟩, hrooted, h⟩ := h
    cases rooted with
    | nil => cases h
    | cons root rest =>
      simp only [bind_eq_ok, rejectIf_eq_ok, Bool.not_eq_true', Bool.not_eq_false] at h
      obtain ⟨-, hcreate, refused, hrefused, h⟩ := h
      exact ⟨root, rest, ignored, refused, hrooted, hcreate, hrefused, h⟩
  · rintro ⟨root, rest, ignored, refused, hrooted, hcreate, hrefused, h⟩
    rw [replayWith_of_rooted hrooted hcreate hrefused]
    exact h

theorem replayed_eq_ok {ignored : List ParsedEscrowEvent}
    {t : ReplayProgress} (h : replayed refused ignored t = .ok r) : t.state = some r.state := by
  unfold replayed at h
  cases hs : t.state with
  | none =>
    rw [hs] at h
    cases h
  | some s =>
    rw [hs] at h
    cases h
    rfl

theorem replayed_ok (refused : RefusedSteps) (ignored : List ParsedEscrowEvent) {t : ReplayProgress}
    (hs : t.state = some s) : ∃ r, replayed refused ignored t = .ok r ∧ r.state = s := by
  unfold replayed
  rw [hs]
  exact ⟨_, rfl, rfl⟩

structure Runs (host : Host) (root : ParsedEscrowEvent) (s₀ : EscrowState)
    (es : List ParsedEscrowEvent) (r : Replayed) : Prop where
  start : applyEvent host none root = .ok s₀
  final : r.state = liveFold (applyToState host) s₀ es

theorem replayRooted_runs
    {claimants seekers : List String} {taken : RefusedSteps} (hkept : root.id ∉ taken.setAside)
    (h : replayRooted host claimants seekers ⟨root :: rest, ignored⟩ taken = .ok r) :
    ∃ s₀, Runs host root s₀ (rest.filter fun e => e.id ∉ taken.setAside) r := by
  unfold replayRooted at h
  dsimp only at h
  rw [List.filter_cons_of_pos (by simpa using hkept), bind_eq_ok] at h
  obtain ⟨t, hloop, hreplayed⟩ := h
  obtain ⟨s₀, t₀, hs₀, ht₀, hrest⟩ := replayLoop_root rfl hloop
  refine ⟨s₀, hs₀, ?_⟩
  exact Option.some.inj ((replayed_eq_ok hreplayed).symm.trans (replayLoop_live ht₀ hrest))

theorem unfunded_of_circle (hs : s.category = "chama" ∧ s.hasLock = false)
    (es : List ParsedEscrowEvent) : (liveFold (applyToState host) s es).hasLock = false := by
  refine (liveFold_invariant (I := fun s : EscrowState => s.category = "chama" ∧ s.hasLock = false)
    ?_ hs es).2
  rintro s e s' ⟨hcategory, hlock⟩ happly
  have hstep := applyToState_stepped happly
  refine ⟨?_, ?_⟩
  · rw [hstep.terms, hcategory]
  by_contra hlocked
  obtain ⟨hkind, -, -, hhandled⟩ := hstep.of_new_lock hlock (by simpa using hlocked)
  cases hhandled
  case locked notCircle _ _ _ _ _ _ _ _ _ _ _ => exact notCircle hcategory
  all_goals simp_all [ParsedEscrowEvent.kind, EscrowPayload.kind]

theorem Runs.plain {s₀ : EscrowState}
    (h : Runs host root s₀ es r) (hlocked : r.state.hasLock = true) :
    isRotationRound root = false := by
  obtain ⟨p, hp, hcreate⟩ := (applyEvent_none host).mp h.start
  have hborn := handleCreate_newborn hp hcreate
  by_contra hround
  have hcircle : p.category = "chama" := by
    simp only [isRotationRound, hp, Bool.not_eq_false, Bool.and_eq_true,
        decide_eq_true_eq] at hround
    exact hround.1
  rw [h.final, unfunded_of_circle ⟨hborn.category.trans hcircle, hborn.hasLock⟩] at hlocked
  cases hlocked

/-- A successful replay of a list without LOCK_STEPs ends in the state that a live client reaches
from the same CREATE over the rooted list, keeping its state at every rejection. -/
theorem replay_liveFold (host : Host) (creator : Option String) (events : List ParsedEscrowEvent)
    (hsteps : ∀ e ∈ events, e.kind ≠ .lockStep) (r : Replayed)
    (h : replayEventChain host events creator = .ok r) :
    ∃ root rest ignored s₀,
      selectTradeRoot host events creator = .ok ⟨root :: rest, ignored⟩ ∧ isCreate root = true ∧
      applyEvent host none root = .ok s₀ ∧ r.state = liveFold (applyToState host) s₀ rest := by
  obtain ⟨root, rest, ignored, taken, hparts⟩ := replayWith_eq_ok.mp h
  have hrooted : ∀ e ∈ root :: rest, e.kind ≠ .lockStep := fun e he =>
    hsteps e (selectTradeRoot_subset hparts.rooted he)
  have hempty := refusedSteps_setAside hrooted hparts.refused
  obtain ⟨s₀, hruns⟩ := replayRooted_runs (by simp [hempty]) hparts.replayed
  refine ⟨root, rest, ignored, s₀, hparts.rooted, hparts.create, hruns.start, ?_⟩
  simpa [hempty] using hruns.final

/-- The replay of the funded sample trade. -/
theorem replay_liveFold_sample :
    ∃ r root rest ignored s₀, replayEventChain silentHost (sampleCreate :: fundedEvents) none =
        .ok r ∧
      selectTradeRoot silentHost (sampleCreate :: fundedEvents) none = .ok ⟨root :: rest, ignored⟩ ∧
      isCreate root = true ∧ applyEvent silentHost none root = .ok s₀ ∧
      r.state = liveFold (applyToState silentHost) s₀ rest := by
  have hrun : (replayEventChain silentHost (sampleCreate :: fundedEvents) none).isOk = true := by
    decide +kernel
  cases hreplay : replayEventChain silentHost (sampleCreate :: fundedEvents) none with
  | error d => rw [hreplay] at hrun; cases hrun
  | ok r =>
    obtain ⟨root, rest, ignored, s₀, h⟩ := replay_liveFold silentHost none _
      (by decide +kernel) r hreplay
    exact ⟨r, root, rest, ignored, s₀, rfl, h⟩

end ChamaEscrow
