import Mathlib.Data.List.Basic
import Mathlib.Order.Monotone.Basic
import Mathlib.Tactic.Common

/-!
# State machines with rejections

A reducer `step : σ → ε → Except δ σ` takes a state and an event to the next state, or rejects the
event.  A live client folds the events it receives and keeps its state at a rejection
(`liveFold`); a run is a sequence of accepted steps (`Run`), here possibly one whose every step
meets a guard `C`.

`Run.invariant` is the induction over runs, `Run.strengthen` the one that may use an invariant
already established, and `run_iff_liveFold` says that the states of the accepted runs are the states
of the folds.  `liveFold_rank` bounds the number of steps that raise a rank along a fold.
-/

namespace Library

variable {σ ε δ : Type*} (step : σ → ε → Except δ σ)

/-! ### Runs -/

/-- The states reached from an initial one by accepted steps that all meet the guard `C`. -/
inductive Run (init : σ → Prop) (C : σ → ε → Prop) : σ → Prop
  | start {s : σ} (h : init s) : Run init C s
  | next {s s' : σ} {e : ε} (hs : Run init C s) (hC : C s e) (hstep : step s e = .ok s') :
    Run init C s'

def Reachable (init : σ → Prop) : σ → Prop := Run step init fun _ _ => True

variable {step} {init : σ → Prop} {C : σ → ε → Prop} {I : σ → Prop}

variable {s : σ}

theorem Run.invariant (h₀ : ∀ s, init s → I s)
    (hstep : ∀ s e s', C s e → I s → step s e = .ok s' → I s') (h : Run step init C s) : I s := by
  induction h with
  | start hs => exact h₀ _ hs
  | next _ hC hs ih => exact hstep _ _ _ hC ih hs

/-- An invariant `J` may be assumed while another one, `I`, is proved. -/
theorem Run.strengthen {J : σ → Prop} (hJ : ∀ s, Run step init C s → J s) (h₀ : ∀ s, init s → I s)
    (hstep : ∀ s e s', C s e → J s → I s → step s e = .ok s' → I s')
    (h : Run step init C s) : I s := by
  induction h with
  | start hs => exact h₀ _ hs
  | next hs hC hst ih => exact hstep _ _ _ hC (hJ _ hs) ih hst

theorem Run.mono {D : σ → ε → Prop} (hCD : ∀ s e, C s e → D s e)
    (h : Run step init C s) : Run step init D s := by
  induction h with
  | start hs => exact .start hs
  | next _ hC hs ih => exact .next ih (hCD _ _ hC) hs

theorem Run.reachable (h : Run step init C s) : Reachable step init s :=
  h.mono fun _ _ _ => trivial

theorem Reachable.invariant (h₀ : ∀ s, init s → I s)
    (hstep : ∀ s e s', I s → step s e = .ok s' → I s') (h : Reachable step init s) : I s :=
  Run.invariant h₀ (fun s e s' _ => hstep s e s') h

variable {e : ε}

theorem Reachable.next {s s' : σ} (h : Reachable step init s)
    (hs : step s e = .ok s') : Reachable step init s' :=
  Run.next h trivial hs

variable (step) in
def checked (check : σ → ε → Bool) (s : σ) (e : ε) : Option σ :=
  if check s e then (step s e).toOption else none

theorem Run.exists_of_checked (hs : init s) (check : σ → ε → Bool)
    (hcheck : ∀ s e, check s e = true → C s e) (es : List ε) {test : σ → Bool}
    (h : (es.foldlM (checked step check) s).any test = true) :
    ∃ s', Run step init C s' ∧ test s' = true := by
  obtain ⟨last, hlast, htest⟩ := (Option.any_eq_true _ _).mp h
  refine ⟨last, ?_, htest⟩
  have hrun : Run step init C s := .start hs
  clear hs h
  induction es generalizing s with
  | nil =>
    obtain rfl := Option.some.inj hlast
    exact hrun
  | cons e es ih =>
    rw [List.foldlM_cons, Option.bind_eq_bind, Option.bind_eq_some_iff] at hlast
    obtain ⟨next, hnext, hrest⟩ := hlast
    unfold checked at hnext
    split_ifs at hnext with hok
    refine ih hrest (hrun.next (hcheck s e hok) ?_)
    cases hstep : step s e with
    | error d =>
      rw [hstep] at hnext
      cases hnext
    | ok s' =>
      rw [hstep] at hnext
      rw [Option.some.inj hnext]

/-! ### The live fold -/

variable (step) in
/-- One event of a live client: a rejection keeps the state. -/
def liveStep (s : σ) (e : ε) : σ :=
  match step s e with
  | .ok s' => s'
  | .error _ => s

variable (step) in
/-- The state of a live client after the events `es`. -/
def liveFold (s : σ) (es : List ε) : σ := es.foldl (liveStep step) s

theorem liveStep_of_ok {s s' : σ} (h : step s e = .ok s') : liveStep step s e = s' := by
  unfold liveStep
  rw [h]

theorem liveStep_of_error {d : δ} (h : step s e = .error d) : liveStep step s e = s := by
  unfold liveStep
  rw [h]

@[simp]
theorem liveFold_nil (s : σ) : liveFold step s [] = s := rfl

@[simp]
theorem liveFold_cons (s : σ) (e : ε) (es : List ε) :
    liveFold step s (e :: es) = liveFold step (liveStep step s e) es := rfl

theorem liveFold_append (s : σ) (es fs : List ε) :
    liveFold step s (es ++ fs) = liveFold step (liveFold step s es) fs :=
  List.foldl_append

theorem liveFold_invariant (hstep : ∀ s e s', I s → step s e = .ok s' → I s') (hs : I s)
    (es : List ε) : I (liveFold step s es) := by
  induction es generalizing s with
  | nil => exact hs
  | cons e es ih =>
    refine ih ?_
    cases he : step s e with
    | ok s' => rw [liveStep_of_ok he]; exact hstep _ _ _ hs he
    | error d => rw [liveStep_of_error he]; exact hs

theorem Run.live (h : Run step init C s) (hC : C s e) : Run step init C (liveStep step s e) := by
  cases he : step s e with
  | ok s' => rw [liveStep_of_ok he]; exact .next h hC he
  | error d => rw [liveStep_of_error he]; exact h

variable {es : List ε}

theorem Run.fold (h : Run step init C s) (hC : ∀ s, ∀ e ∈ es, C s e) :
    Run step init C (liveFold step s es) := by
  induction es generalizing s with
  | nil => exact h
  | cons e es ih =>
    exact ih (h.live (hC s e List.mem_cons_self)) fun s e he => hC s e (List.mem_cons_of_mem _ he)

theorem foldlM_liveFold {τ κ : Type*} {f : τ → ε → Except κ τ} {R : τ → σ → Prop}
    (hf : ∀ t s e t', R t s → f t e = .ok t' → R t' (liveStep step s e)) {t t' : τ}
    (ht : R t s) (h : es.foldlM f t = .ok t') : R t' (liveFold step s es) := by
  induction es generalizing t s with
  | nil =>
    simp only [List.foldlM_nil, pure, Except.pure, Except.ok.injEq] at h
    exact h ▸ ht
  | cons e es ih =>
    rw [List.foldlM_cons] at h
    cases he : f t e with
    | error d => simp [he, bind, Except.bind] at h
    | ok next =>
      rw [he] at h
      exact ih (hf t s e next ht he) h

/-- A fold over part of a list is followed by a fold over the whole list, when the two keep in step
at the common events and the second survives each of the others. -/
theorem foldlM_follow {τ υ κ μ : Type*} {f : τ → ε → Except κ τ} {g : υ → ε → Except μ υ}
    {R : τ → υ → Prop} {keep : ε → Bool}
    (hkeep : ∀ t u e t', e ∈ es → keep e = true → R t u → f t e = .ok t' →
      ∃ u', g u e = .ok u' ∧ R t' u')
    (hskip : ∀ t u e, e ∈ es → keep e = false → R t u → ∃ u', g u e = .ok u' ∧ R t u')
    {t t' : τ} {u : υ} (hR : R t u) (h : (es.filter keep).foldlM f t = .ok t') :
    ∃ u', es.foldlM g u = .ok u' ∧ R t' u' := by
  induction es generalizing t u with
  | nil =>
    simp only [List.filter_nil, List.foldlM_nil, pure, Except.pure, Except.ok.injEq] at h
    exact ⟨u, rfl, h ▸ hR⟩
  | cons e es ih =>
    have hrest {t : τ} {u : υ} := ih (t := t) (u := u)
      (fun t u e t' he => hkeep t u e t' (List.mem_cons_of_mem _ he))
      (fun t u e he => hskip t u e (List.mem_cons_of_mem _ he))
    cases he : keep e with
    | true =>
      rw [List.filter_cons_of_pos he, List.foldlM_cons] at h
      cases hstep : f t e with
      | error d => simp [hstep, bind, Except.bind] at h
      | ok next =>
        rw [hstep] at h
        obtain ⟨v, hv, hnext⟩ := hkeep t u e next List.mem_cons_self he hR hstep
        obtain ⟨u', hu', hlast⟩ := hrest hnext h
        exact ⟨u', by rw [List.foldlM_cons, hv]; exact hu', hlast⟩
    | false =>
      rw [List.filter_cons_of_neg (by simp [he])] at h
      obtain ⟨v, hv, hnext⟩ := hskip t u e List.mem_cons_self he hR
      obtain ⟨u', hu', hlast⟩ := hrest hnext h
      exact ⟨u', by rw [List.foldlM_cons, hv]; exact hu', hlast⟩

theorem reachable_iff_liveFold :
    Reachable step init s ↔ ∃ s₀ es, init s₀ ∧ s = liveFold step s₀ es := by
  constructor
  · intro h
    induction h with
    | start hs => exact ⟨_, [], hs, rfl⟩
    | @next s s' e _ _ hstep ih =>
      obtain ⟨s₀, es, h₀, rfl⟩ := ih
      refine ⟨s₀, es ++ [e], h₀, ?_⟩
      rw [liveFold_append, liveFold_cons, liveStep_of_ok hstep, liveFold_nil]
  · rintro ⟨s₀, es, h₀, rfl⟩
    exact liveFold_invariant (fun s e s' hs he => Reachable.next hs he) (Run.start h₀) es

/-! ### Ranks -/

section Rank

variable (step) in
/-- The number of steps of a fold that change the value of `f`. -/
def changes {τ : Type*} [DecidableEq τ] (f : σ → τ) : σ → List ε → ℕ
  | _, [] => 0
  | s, e :: es =>
    (if f (liveStep step s e) = f s then 0 else 1) + changes f (liveStep step s e) es

/-- If every step of a fold that changes `f` raises the rank of `f`, the fold changes it at most as
often as the rank grows. -/
theorem changes_le_rank {τ : Type*} [DecidableEq τ] {f : σ → τ} (rank : τ → ℕ)
    (hI : ∀ s e s', I s → step s e = .ok s' → I s')
    (hrank : ∀ s e s', I s → step s e = .ok s' → f s' = f s ∨ rank (f s) < rank (f s'))
    (hs : I s) (es : List ε) :
    rank (f s) + changes step f s es ≤ rank (f (liveFold step s es)) := by
  induction es generalizing s with
  | nil => simp [changes]
  | cons e es ih =>
    rw [changes, liveFold_cons]
    cases he : step s e with
    | error d =>
      rw [liveStep_of_error he]
      simpa using ih hs
    | ok s' =>
      rw [liveStep_of_ok he]
      have hnext := ih (hI _ _ _ hs he)
      rcases hrank _ _ _ hs he with hsame | hlt
      · rw [if_pos hsame, ← hsame]
        omega
      · rw [if_neg (fun h => by rw [h] at hlt; exact lt_irrefl _ hlt)]
        omega

end Rank

end Library
