import ChamaEscrow.Js.Value
import ChamaEscrow.Library.OrderedMap
import Mathlib.Data.List.Sort

/-!
# Objects as capped stores

A store of the client is an object with one key for each entry, and keeps a bounded number of them:
before it is saved, the entries with the oldest stamps are dropped.  Which of two entries of one
stamp goes first is decided by the order of the keys, where array indices come before the others.

An entry that stays is untouched (`get_evictOldest`), a store within its bound keeps them all
(`evictOldest_of_le`), and no store is left beyond its bound (`length_evictOldest`).  Another store
is made anew of its newest entries (`keepNewest`), with the same results.
-/

namespace ChamaEscrow.Js

open Library

variable {α : Type}

def arrayIndex? (key : String) : Option ℕ :=
  let n := key.toList.foldl (fun n c => 10 * n + (c.toNat - '0'.toNat)) 0
  -- No leading zero, and `2 ^ 32 - 1` is the first number that is no index.
  if isDigits key && (key = "0" || key.toList.head? ≠ some '0') && n < 4294967295 then some n
  else none

/-- `Object.entries`: array indices first, in their order, then the other keys as inserted. -/
def objectEntries (m : OrderedMap String α) : List (String × α) :=
  (m.entries.filter fun e => (arrayIndex? e.1).isSome).insertionSort
      (fun e e' => (arrayIndex? e.1).getD 0 ≤ (arrayIndex? e'.1).getD 0)
    ++ m.entries.filter fun e => !(arrayIndex? e.1).isSome

theorem perm_objectEntries (m : OrderedMap String α) : (objectEntries m).Perm m.entries := by
  have hsorted := List.perm_insertionSort
    (fun e e' : String × α => (arrayIndex? e.1).getD 0 ≤ (arrayIndex? e'.1).getD 0)
    (m.entries.filter fun e => (arrayIndex? e.1).isSome)
  exact (hsorted.append_right _).trans (List.filter_append_perm _ _)

/-! ### Dropping the oldest -/

def oldestFirst (stamp : α → ℤ) (m : OrderedMap String α) : List (String × α) :=
  (objectEntries m).insertionSort fun e e' => stamp e.2 ≤ stamp e'.2

/-- The store without the oldest entries beyond `max`. -/
def evictOldest (stamp : α → ℤ) (max : ℕ) (m : OrderedMap String α) : OrderedMap String α :=
  if m.entries.length ≤ max then m
  else
    let dropped := ((oldestFirst stamp m).take (m.entries.length - max)).map Prod.fst
    m.filter fun key _ => key ∉ dropped

variable {stamp : α → ℤ} {max : ℕ} {m : OrderedMap String α}

theorem evictOldest_of_le (h : m.entries.length ≤ max) : evictOldest stamp max m = m := if_pos h

theorem get_evictOldest (key : String) :
    (evictOldest stamp max m).get key = none ∨ (evictOldest stamp max m).get key = m.get key := by
  unfold evictOldest
  split_ifs with hle
  · exact Or.inr rfl
  · rw [OrderedMap.get_filter]
    cases m.get key with
    | none => exact Or.inl rfl
    | some a =>
      rw [Option.filter_some]
      split_ifs
      · exact Or.inr rfl
      · exact Or.inl rfl

/-- The store is left within its bound. -/
theorem length_evictOldest : (evictOldest stamp max m).entries.length ≤ max := by
  unfold evictOldest
  split_ifs with hle
  · exact hle
  · set dropped := ((oldestFirst stamp m).take (m.entries.length - max)).map Prod.fst with hdropped
    have hperm : (oldestFirst stamp m).Perm m.entries :=
      (List.perm_insertionSort _ _).trans (perm_objectEntries m)
    have hnodup : dropped.Nodup := by
      have hkeys : ((oldestFirst stamp m).map Prod.fst).Nodup :=
        (hperm.map Prod.fst).nodup_iff.mpr m.nodup
      exact hkeys.sublist ((List.take_sublist _ _).map _)
    have hsubset : dropped ⊆ m.entries.map Prod.fst := by
      intro key hkey
      obtain ⟨e, he, rfl⟩ := List.mem_map.mp hkey
      exact List.mem_map_of_mem (hperm.subset (List.mem_of_mem_take he))
    have hlength : dropped.length = m.entries.length - max := by
      rw [hdropped, List.length_map, List.length_take, hperm.length_eq]
      omega
    -- The dropped keys and the keys that stay are apart, and all are keys of the store.
    have hkept : ((m.entries.filter fun e => e.1 ∉ dropped).map Prod.fst ++ dropped).Nodup := by
      rw [List.nodup_append]
      refine ⟨m.nodup.sublist (List.filter_sublist.map _), hnodup, ?_⟩
      rintro key hkey _ hgone rfl
      obtain ⟨e, he, rfl⟩ := List.mem_map.mp hkey
      exact (of_decide_eq_true (List.mem_filter.mp he).2) hgone
    have hall : ((m.entries.filter fun e => e.1 ∉ dropped).map Prod.fst ++ dropped) ⊆
        m.entries.map Prod.fst :=
      List.append_subset.mpr ⟨(List.filter_sublist.map _).subset, hsubset⟩
    have hbound := (List.subperm_of_subset hkept hall).length_le
    rw [List.length_append, hlength, List.length_map, List.length_map] at hbound
    have hentries : (m.filter fun key _ => key ∉ dropped).entries.length =
        (m.entries.filter fun e => e.1 ∉ dropped).length := rfl
    exact hentries.le.trans (by omega)

/-! ### Keeping the newest -/

def newestFirst (stamp : α → ℤ) (m : OrderedMap String α) : List (String × α) :=
  (objectEntries m).insertionSort fun e e' => stamp e'.2 ≤ stamp e.2

theorem perm_newestFirst (stamp : α → ℤ) (m : OrderedMap String α) :
    (newestFirst stamp m).Perm m.entries :=
  (List.perm_insertionSort _ _).trans (perm_objectEntries m)

/-- A new store of the `max` newest entries. -/
def keepNewest (stamp : α → ℤ) (max : ℕ) (m : OrderedMap String α) : OrderedMap String α :=
  if m.entries.length ≤ max then m
  else ⟨(newestFirst stamp m).take max, by
    have hnodup := ((perm_newestFirst stamp m).map Prod.fst).nodup_iff.mpr m.nodup
    exact hnodup.sublist ((List.take_sublist _ _).map _)⟩

theorem keepNewest_of_le (h : m.entries.length ≤ max) : keepNewest stamp max m = m := if_pos h

theorem length_keepNewest : (keepNewest stamp max m).entries.length ≤ max := by
  unfold keepNewest
  split_ifs with hle
  · exact hle
  · exact List.length_take_le _ _

theorem get_keepNewest (key : String) :
    (keepNewest stamp max m).get key = none ∨ (keepNewest stamp max m).get key = m.get key := by
  cases hget : (keepNewest stamp max m).get key with
  | none => exact Or.inl rfl
  | some a =>
    refine Or.inr ?_
    unfold keepNewest at hget
    split_ifs at hget with hle
    · exact hget.symm
    · have hmem := (OrderedMap.get_eq_some_iff _ _ _).mp hget
      have hold := (perm_newestFirst stamp m).subset (List.mem_of_mem_take hmem)
      exact ((OrderedMap.get_eq_some_iff _ _ _).mpr hold).symm

end ChamaEscrow.Js
