import ChamaEscrow.Library.OrderedMap

/-!
# Holdings kept in slots

A store keeps one value in each slot, but the values have an identity of their own: bearer notes,
say, that are kept under the trade they belong to.  What it is to hold is a ledger with one value
for each slot and identity, in which values of the same slot do not meet.

A store `Mirrors` a ledger when it holds exactly what the ledger says.  Changing and dropping values
keeps it so (`Mirrors.map`, `Mirrors.filter`); putting a value in a slot does when the slot is free
or holds a value of the same identity (`Mirrors.set`).
-/

namespace Library

variable {κ ν α : Type*} [DecidableEq κ] [DecidableEq ν]

def Mirrors (ident : α → ν) (store : OrderedMap κ α) (ledger : OrderedMap (κ × ν) α) : Prop :=
  ∀ k n a, ledger.get (k, n) = some a ↔ store.get k = some a ∧ ident a = n

namespace Mirrors

variable {ident : α → ν} {store : OrderedMap κ α} {ledger : OrderedMap (κ × ν) α}

theorem empty : Mirrors ident (.empty : OrderedMap κ α) (.empty : OrderedMap (κ × ν) α) := by
  intro k n a
  simp

/-- Only what the keys hold matters. -/
theorem congr {store' : OrderedMap κ α} (h : Mirrors ident store ledger)
    (hget : ∀ k, store'.get k = store.get k) : Mirrors ident store' ledger := by
  intro k n a
  rw [hget]
  exact h k n a

theorem set (h : Mirrors ident store ledger) {k : κ} {a : α}
    (hfree : ∀ b, store.get k = some b → ident b = ident a) :
    Mirrors ident (store.set k a) (ledger.set (k, ident a) a) := by
  intro k' n b
  rw [OrderedMap.get_set, OrderedMap.get_set]
  by_cases hk : k' = k
  · subst hk
    rw [if_pos rfl]
    by_cases hn : n = ident a
    · subst hn
      rw [if_pos rfl]
      constructor
      · intro hb
        exact ⟨hb, congrArg ident (Option.some.inj hb).symm⟩
      · exact And.left
    · rw [if_neg fun heq => hn (Prod.mk.inj heq).2, h]
      constructor
      · rintro ⟨hget, rfl⟩
        exact absurd (hfree b hget) hn
      · rintro ⟨hb, rfl⟩
        exact absurd (congrArg ident (Option.some.inj hb).symm) hn
  · rw [if_neg hk, if_neg fun heq => hk (Prod.mk.inj heq).1]
    exact h k' n b

theorem map (h : Mirrors ident store ledger) {f : κ → α → α} (hf : ∀ k a, ident (f k a) = ident a) :
    Mirrors ident (store.map f) (ledger.map fun e => f e.1) := by
  intro k n b
  rw [OrderedMap.get_map, OrderedMap.get_map, Option.map_eq_some_iff, Option.map_eq_some_iff]
  constructor
  · rintro ⟨a, ha, rfl⟩
    obtain ⟨hget, hident⟩ := (h k n a).mp ha
    exact ⟨⟨a, hget, rfl⟩, (hf k a).trans hident⟩
  · rintro ⟨⟨a, hget, rfl⟩, hident⟩
    exact ⟨a, (h k n a).mpr ⟨hget, (hf k a).symm.trans hident⟩, rfl⟩

theorem filter (h : Mirrors ident store ledger) (p : κ → α → Bool) :
    Mirrors ident (store.filter p) (ledger.filter fun e => p e.1) := by
  intro k n b
  rw [OrderedMap.get_filter, OrderedMap.get_filter, Option.filter_eq_some_iff,
    Option.filter_eq_some_iff, h]
  exact and_right_comm

/-- Some value has a property in the one as in the other. -/
theorem any (h : Mirrors ident store ledger) (p : κ → α → Bool) :
    ledger.any (fun e => p e.1) = store.any p := by
  rw [Bool.eq_iff_iff, OrderedMap.any_eq_true, OrderedMap.any_eq_true]
  constructor
  · rintro ⟨⟨k, n⟩, a, hget, hp⟩
    exact ⟨k, a, ((h k n a).mp hget).1, hp⟩
  · rintro ⟨k, a, hget, hp⟩
    exact ⟨(k, ident a), a, (h k _ a).mpr ⟨hget, rfl⟩, hp⟩

end Mirrors

end Library
