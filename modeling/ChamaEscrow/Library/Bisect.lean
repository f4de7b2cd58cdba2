import Mathlib.Algebra.Order.Ring.Nat
import Mathlib.Tactic.Ring

/-!
# Searching by halves

The last number with a property that holds up to some point: an interval that contains it is halved
until one number is left.

* `bisect_spec`: what is found is the greatest number with the property, or the lower end of the
  interval.
-/

namespace Library

variable {p : ℕ → Prop} [DecidablePred p]

def middle (lo hi : ℕ) : ℕ := (lo + hi + 1) / 2

/-- The search in the interval from `lo` to `hi`, both included. -/
def bisect (p : ℕ → Prop) [DecidablePred p] : (fuel lo hi : ℕ) → ℕ
  | 0, lo, _ => lo
  | fuel + 1, lo, hi =>
    if lo < hi then
      if p (middle lo hi) then bisect p fuel (middle lo hi) hi
      else bisect p fuel lo (middle lo hi - 1)
    else lo

theorem middle_bounds {lo hi : ℕ} (h : lo < hi) : lo < middle lo hi ∧ middle lo hi ≤ hi := by
  unfold middle
  omega

theorem halves_lt {lo hi fuel : ℕ} (h : lo < hi) (hfuel : hi - lo < 2 ^ (fuel + 1)) :
    hi - middle lo hi < 2 ^ fuel ∧ middle lo hi - 1 - lo < 2 ^ fuel := by
  rw [pow_succ] at hfuel
  unfold middle
  omega

theorem bisect_spec (hp : ∀ m n, m ≤ n → p n → p m) {fuel lo hi : ℕ} (hle : lo ≤ hi)
    (hfuel : hi - lo < 2 ^ fuel) (hhi : ∀ n, p n → n ≤ hi) :
    lo ≤ bisect p fuel lo hi ∧ bisect p fuel lo hi ≤ hi ∧
      (bisect p fuel lo hi = lo ∨ p (bisect p fuel lo hi)) ∧
      ∀ n, p n → n ≤ bisect p fuel lo hi := by
  induction fuel generalizing lo hi with
  | zero =>
    have heq : hi = lo := by
      rw [pow_zero] at hfuel
      omega
    show lo ≤ lo ∧ lo ≤ hi ∧ (lo = lo ∨ p lo) ∧ ∀ n, p n → n ≤ lo
    exact ⟨Nat.le_refl _, hle, Or.inl rfl, fun n hn => heq ▸ hhi n hn⟩
  | succ fuel ih =>
    rw [bisect]
    by_cases hlt : lo < hi
    · obtain ⟨hlow, hhigh⟩ := middle_bounds hlt
      obtain ⟨hupper, hlower⟩ := halves_lt hlt hfuel
      rw [if_pos hlt]
      by_cases hmid : p (middle lo hi)
      · rw [if_pos hmid]
        obtain ⟨hge, hbelow, hfound, hlast⟩ := ih hhigh hupper hhi
        refine ⟨by omega, hbelow, ?_, hlast⟩
        rcases hfound with heq | hfound
        · exact Or.inr (by rwa [heq])
        · exact Or.inr hfound
      · rw [if_neg hmid]
        have hdown : ∀ n, p n → n ≤ middle lo hi - 1 := by
          intro n hn
          by_contra hcross
          exact hmid (hp _ n (by omega) hn)
        obtain ⟨hge, hbelow, hfound, hlast⟩ := ih (by omega) hlower hdown
        exact ⟨hge, by omega, hfound, hlast⟩
    · rw [if_neg hlt]
      exact ⟨Nat.le_refl _, hle, Or.inl rfl, fun n hn => (hhi n hn).trans (by omega)⟩

end Library
