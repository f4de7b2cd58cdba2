import Mathlib.Tactic.Common

/-!
# Guarded computations

A handler that checks its preconditions one after the other and only then builds a result is a
computation in `Except ε`.  The two questions asked about such a computation are what it took to
succeed, and which failures it can end in.

The inversion rules `rejectIf_eq_ok`, `bind_eq_ok`, `ite_error_eq_ok` turn `x = .ok b` into the
guards that were passed and the values that were computed on the way; they form the simp set of the
first question.  `Avoids P x` says that `x` does not fail with an error satisfying `P`, and its
rules follow the shape of the computation in the same way.
-/

namespace Library

universe u v w

variable {ε : Type u} {δ : Type v} {α β : Type w}

/-! ### Guards -/

/-- Fail with `e` when `c` holds. -/
def rejectIf (c : Prop) [Decidable c] (e : ε) : Except ε Unit :=
  if c then .error e else .ok ()

variable {e : ε}

@[simp]
theorem rejectIf_eq_ok {c : Prop} [Decidable c] {u : Unit} : rejectIf c e = .ok u ↔ ¬ c := by
  unfold rejectIf
  split_ifs with h <;> simp [h]

/-! ### Success -/

variable {x : Except ε α} {f : α → Except ε β}

@[simp]
theorem bind_eq_ok {b : β} : (x >>= f) = .ok b ↔ ∃ a, x = .ok a ∧ f a = .ok b := by
  cases x with
  | error e => simp [bind, Except.bind]
  | ok a => simp [bind, Except.bind]

theorem toOption_eq_some {ε α : Type*} {x : Except ε α} {a : α} :
    x.toOption = some a ↔ x = .ok a := by
  cases x with
  | error problem => simp [Except.toOption]
  | ok b => simp [Except.toOption]

/-- A test that some result passes has one to pass it. -/
theorem exists_ok_of_any {f : α → Bool} (h : x.toOption.any f = true) :
    ∃ a, x = .ok a ∧ f a = true := by
  cases x with
  | error e => cases h
  | ok a => exact ⟨a, rfl, h⟩

theorem ok_bind (a : α) (f : α → Except ε β) : ((.ok a : Except ε α) >>= f) = f a := rfl

@[simp]
theorem pure_eq_ok {a b : α} : (pure a : Except ε α) = .ok b ↔ a = b := by
  simp [pure, Except.pure]

@[simp]
theorem map_eq_ok {f : α → β} {b : β} : f <$> x = .ok b ↔ ∃ a, x = .ok a ∧ f a = b := by
  cases x <;> simp [Functor.map, Except.map]

/-- A branch that fails is a branch that was not taken. -/
theorem ite_error_eq_ok {c : Prop} [Decidable c] {a : α} :
    (if c then .error e else x) = .ok a ↔ ¬ c ∧ x = .ok a := by
  split_ifs with h <;> simp [h]

/-- The same computation under another type of errors. -/
def under (f : δ → ε) : Except δ α → Except ε α
  | .ok a => .ok a
  | .error d => .error (f d)

@[simp]
theorem under_eq_ok {f : δ → ε} {x : Except δ α} {a : α} : under f x = .ok a ↔ x = .ok a := by
  cases x <;> simp [under]

/-- What a traversal returns was computed from the elements it went over. -/
theorem exists_of_mapM_eq_ok {l : List α} {l' : List β}
    (h : l.mapM f = .ok l') : ∀ b ∈ l', ∃ a ∈ l, f a = .ok b := by
  induction l generalizing l' with
  | nil =>
    obtain rfl := pure_eq_ok.mp h
    simp
  | cons a l ih =>
    rw [List.mapM_cons] at h
    obtain ⟨b, hb, h⟩ := bind_eq_ok.mp h
    obtain ⟨rest, hrest, h⟩ := bind_eq_ok.mp h
    obtain rfl := pure_eq_ok.mp h
    intro b' hb'
    rcases List.mem_cons.mp hb' with rfl | hmem
    · exact ⟨a, List.mem_cons_self, hb⟩
    · obtain ⟨a', ha', hf⟩ := ih hrest b' hmem
      exact ⟨a', List.mem_cons_of_mem a ha', hf⟩

/-! ### Failure -/

/-- `x` does not fail with an error satisfying `P`. -/
def Avoids (P : ε → Prop) (x : Except ε α) : Prop := ∀ e, x = .error e → ¬ P e

variable {P : ε → Prop}

@[simp]
theorem avoids_ok (a : α) : Avoids P (.ok a : Except ε α) := by
  intro e h
  cases h

@[simp]
theorem avoids_pure (a : α) : Avoids P (pure a : Except ε α) := avoids_ok a

@[simp]
theorem avoids_error : Avoids P (.error e : Except ε α) ↔ ¬ P e := by
  constructor
  · exact fun h => h e rfl
  · intro h e' he
    cases he
    exact h

@[simp]
theorem avoids_rejectIf {c : Prop} [Decidable c] : Avoids P (rejectIf c e) ↔ (c → ¬ P e) := by
  unfold rejectIf
  split_ifs with h <;> simp [h]

/-- A sequence avoids an error when its parts do; the second part only has to for a value that the
first one produces. -/
@[simp]
theorem avoids_bind : Avoids P (x >>= f) ↔ Avoids P x ∧ ∀ a, x = .ok a → Avoids P (f a) := by
  cases x with
  | error e => simp [bind, Except.bind]
  | ok a => simp [bind, Except.bind]

@[simp]
theorem avoids_map {f : α → β} : Avoids P (f <$> x) ↔ Avoids P x := by
  cases x <;> simp [Functor.map, Except.map]

@[simp]
theorem avoids_under {f : δ → ε} {x : Except δ α} :
    Avoids P (under f x) ↔ ∀ d, x = .error d → ¬ P (f d) := by
  cases x <;> simp [under]

end Library
