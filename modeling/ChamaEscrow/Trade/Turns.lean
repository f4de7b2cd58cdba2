import ChamaEscrow.Js.Monotone
import ChamaEscrow.Library.Sorted
import ChamaEscrow.Trade.ShareWriters
import Mathlib.Data.String.Basic

/-!
# The turns of a rotation

A sealed circle pays its pot to one member in each round after the first, in the order of a race:
the fastest of the round before among those who have not collected, the host last.  Both the order
of the members and the race are read off a list of share escrows, in which escrows may be missing or
listed twice.

`collectors` is the list of all turns.  The race of a round depends on what its shares are and not
on how they are listed (`race_find?_congr`), because a race is sorted by a linear order; nor does
the order of the members, because a member has one share of the first round (`rotationOrder_congr`).
`rotation_turns` is the result.
-/

namespace ChamaEscrow

open Js Library

variable {host : Host} {rot : Rotation} {shares shares' : List ShareView}

/-! ### The race -/

theorem standing_le_iff {a b : Standing} (ha : a.lockedAt ≠ .nan) (hb : b.lockedAt ≠ .nan) :
    (Standing.before a b = true ∨ a = b) ↔
      a.lockedAt < b.lockedAt ∨ a.lockedAt = b.lockedAt ∧ a.member ≤ b.member := by
  have heq (hab : ¬a.lockedAt < b.lockedAt) (hba : ¬b.lockedAt < a.lockedAt) :
      a.lockedAt = b.lockedAt :=
    JsNumber.eq_of_le_of_le (JsNumber.le_of_not_lt hb ha hba) (JsNumber.le_of_not_lt ha hb hab)
  have hirrefl {n : JsNumber} (hn : n ≠ .nan) : ¬n < n :=
    JsNumber.not_lt_of_le (JsNumber.le_refl hn)
  by_cases hlt : a.lockedAt < b.lockedAt
  · simp [Standing.before, hlt]
  · rw [Standing.before, decide_eq_false hlt, Bool.false_or]
    simp only [hlt, false_or]
    by_cases hgt : b.lockedAt < a.lockedAt
    · have hne : a.lockedAt ≠ b.lockedAt := by
        intro h
        rw [h] at hgt
        exact hirrefl hb hgt
      have hneq : a ≠ b := fun h => hne (congrArg Standing.lockedAt h)
      simp [hgt, hne, hneq]
    · have hsame := heq hlt hgt
      rw [decide_eq_false hgt, Bool.not_false, Bool.true_and, decide_eq_true_eq, and_iff_right hsame]
      constructor
      · rintro (hmember | rfl)
        · exact hmember.le
        · exact le_rfl
      · intro hle
        rcases hle.lt_or_eq with hmember | hmember
        · exact Or.inl hmember
        · refine Or.inr ?_
          cases a
          cases b
          simp_all

/-- A standing with a time. -/
abbrev Clocked := { s : Standing // s.lockedAt ≠ .nan }

/-- The order of the race. -/
def Clocked.Le (a b : Clocked) : Prop := Standing.before a.1 b.1 = true ∨ a.1 = b.1

instance : DecidableRel Clocked.Le := fun a b =>
  inferInstanceAs (Decidable (Standing.before a.1 b.1 = true ∨ a.1 = b.1))

theorem Clocked.total (a b : Clocked) : a.Le b ∨ b.Le a := by
  rw [Clocked.Le, Clocked.Le, standing_le_iff a.2 b.2, standing_le_iff b.2 a.2]
  by_cases hlt : a.1.lockedAt < b.1.lockedAt
  · exact Or.inl (Or.inl hlt)
  · by_cases hgt : b.1.lockedAt < a.1.lockedAt
    · exact Or.inr (Or.inl hgt)
    · have heq := JsNumber.eq_of_le_of_le (JsNumber.le_of_not_lt b.2 a.2 hgt)
        (JsNumber.le_of_not_lt a.2 b.2 hlt)
      rcases le_total a.1.member b.1.member with hle | hle
      · exact Or.inl (Or.inr ⟨heq, hle⟩)
      · exact Or.inr (Or.inr ⟨heq.symm, hle⟩)

theorem Clocked.trans (a b c : Clocked) (hab : a.Le b) (hbc : b.Le c) : a.Le c := by
  rw [Clocked.Le, standing_le_iff a.2 b.2] at hab
  rw [Clocked.Le, standing_le_iff b.2 c.2] at hbc
  rw [Clocked.Le, standing_le_iff a.2 c.2]
  rcases hab with hab | ⟨heq, hab⟩
  · rcases hbc with hbc | ⟨heq', -⟩
    · exact Or.inl (JsNumber.lt_of_lt_of_le hab (JsNumber.le_of_lt hbc))
    · exact Or.inl (heq' ▸ hab)
  · rw [heq]
    rcases hbc with hbc | ⟨heq', hbc⟩
    · exact Or.inl hbc
    · exact Or.inr ⟨heq', hab.trans hbc⟩

theorem Clocked.antisymm (a b : Clocked) (hab : a.Le b) (hba : b.Le a) : a = b := by
  rw [Clocked.Le, standing_le_iff a.2 b.2] at hab
  rw [Clocked.Le, standing_le_iff b.2 a.2] at hba
  rcases hab with hab | ⟨heq, hab⟩
  · exfalso
    rcases hba with hba | ⟨heq', -⟩
    · exact JsNumber.not_lt_of_le (JsNumber.le_of_lt hba) hab
    · rw [heq'] at hab
      exact JsNumber.not_lt_of_le (JsNumber.le_refl a.2) hab
  · rcases hba with hba | ⟨-, hba⟩
    · rw [heq] at hba
      exact absurd hba (JsNumber.not_lt_of_le (JsNumber.le_refl b.2))
    · refine Subtype.ext ?_
      have hmember := hab.antisymm hba
      rcases a with ⟨⟨⟩, _⟩
      rcases b with ⟨⟨⟩, _⟩
      simp_all

theorem rankStandings_map (l : List Clocked) :
    rankStandings (l.map Subtype.val) = (l.insertionSort Clocked.Le).map Subtype.val :=
  (List.map_insertionSort _ _ Subtype.val _ fun _ _ _ _ => Iff.rfl).symm

theorem exists_clocked {l : List Standing} (h : ∀ s ∈ l, s.lockedAt ≠ .nan) :
    ∃ c : List Clocked, c.map Subtype.val = l :=
  ⟨l.attachWith _ h, List.attachWith_map_subtype_val h⟩

variable {l l' : List Standing}

theorem rankStandings_find?_congr (hl : ∀ s ∈ l, s.lockedAt ≠ .nan)
    (hl' : ∀ s ∈ l', s.lockedAt ≠ .nan) (h : ∀ s, s ∈ l ↔ s ∈ l') (p : Standing → Bool) :
    (rankStandings l).find? p = (rankStandings l').find? p := by
  obtain ⟨c, rfl⟩ := exists_clocked hl
  obtain ⟨c', rfl⟩ := exists_clocked hl'
  have hmem (s : Clocked) : s ∈ c ↔ s ∈ c' := by
    have hs := h s.1
    rwa [List.mem_map_of_injective Subtype.val_injective,
      List.mem_map_of_injective Subtype.val_injective] at hs
  rw [rankStandings_map, rankStandings_map, List.find?_map, List.find?_map,
    sorted_find?_congr Clocked.total Clocked.trans Clocked.antisymm hmem]

theorem rankStandings_perm (hl : ∀ s ∈ l, s.lockedAt ≠ .nan)
    (h : l.Perm l') : rankStandings l = rankStandings l' := by
  obtain ⟨c, rfl⟩ := exists_clocked hl
  obtain ⟨c', rfl⟩ := exists_clocked (l := l') fun s hs => hl s (h.mem_iff.mpr hs)
  have hperm : c.Perm c' := (List.map_perm_map_iff Subtype.val_injective).mp h
  rw [rankStandings_map, rankStandings_map,
    sorted_inj Clocked.total Clocked.trans Clocked.antisymm hperm]

/-- Whether a share is one of round `r`. -/
def OfRound (host : Host) (round1Id : String) (r : ℕ) (e : ShareView) : Prop :=
  e.chamaPolicy = some (if r = 1 then ChamaPolicy.shareV1 else .shareV2) ∧
    e.parent.map toLowerCase =
      some (if r = 1 then toLowerCase round1Id else roundCircleId host round1Id (.ofInt r))

instance (r : ℕ) (e : ShareView) (round1Id : String) : Decidable (OfRound host round1Id r e) :=
  inferInstanceAs (Decidable (_ ∧ _))

/-- The standings of round `r`. -/
def standings (host : Host) (round1Id : String) (shares : List ShareView) (r : ℕ) : List Standing :=
  (shares.filter fun e => OfRound host round1Id r e).filterMap shareStanding

theorem raceOf_eq (r : ℕ) : raceOf host rot shares r =
    ((rankStandings (standings host rot.round1Id shares r)).map Standing.member).filter
      (· ∈ rot.order) := rfl

theorem mem_standings {round1Id : String} {r : ℕ} {s : Standing} :
    s ∈ standings host round1Id shares r ↔
      ∃ e ∈ shares, OfRound host round1Id r e ∧ shareStanding e = some s := by
  simp only [standings, List.mem_filterMap, List.mem_filter, decide_eq_true_eq, and_assoc]

def ClockedShares (shares : List ShareView) : Prop :=
  ∀ e ∈ shares, e.lockTimestamp ≠ some .nan

theorem ClockedShares.standing (h : ClockedShares shares) {e : ShareView} (he : e ∈ shares)
    {s : Standing} (hs : shareStanding e = some s) : s.lockedAt ≠ .nan := by
  unfold shareStanding at hs
  split at hs
  · rename_i time member htime hmember
    obtain rfl := Option.some.inj hs
    rintro rfl
    exact h e he htime
  · cases hs

theorem race_find?_congr (hclock : ClockedShares shares) (hclock' : ClockedShares shares') {r : ℕ}
    (h : ∀ e, OfRound host rot.round1Id r e → (e ∈ shares ↔ e ∈ shares')) (p : String → Bool) :
    (raceOf host rot shares r).find? p = (raceOf host rot shares' r).find? p := by
  have hclocked {shares : List ShareView} (hclock : ClockedShares shares) :
      ∀ s ∈ standings host rot.round1Id shares r, s.lockedAt ≠ .nan := by
    intro s hs
    obtain ⟨e, he, -, hstanding⟩ := mem_standings.mp hs
    exact hclock.standing he hstanding
  have hmem (s : Standing) : s ∈ standings host rot.round1Id shares r ↔
      s ∈ standings host rot.round1Id shares' r := by
    rw [mem_standings, mem_standings]
    constructor
    · rintro ⟨e, he, hround, hs⟩
      exact ⟨e, (h e hround).mp he, hround, hs⟩
    · rintro ⟨e, he, hround, hs⟩
      exact ⟨e, (h e hround).mpr he, hround, hs⟩
  rw [raceOf_eq, raceOf_eq, List.find?_filter, List.find?_filter, List.find?_map, List.find?_map,
    rankStandings_find?_congr (hclocked hclock) (hclocked hclock') hmem]

/-! ### The collectors -/

/-- The collectors of all rounds, up to the first round without one. -/
def collectors (host : Host) (rot : Rotation) (shares : List ShareView) : List String :=
  collectorsFrom host rot shares rot.order.length 2 []

theorem collectorsFrom_getElem? {fuel fuel' r i : ℕ} {collected : List String} (h : i < fuel)
    (h' : i < fuel') : (collectorsFrom host rot shares fuel r collected)[i]? =
      (collectorsFrom host rot shares fuel' r collected)[i]? := by
  induction fuel generalizing fuel' r i collected with
  | zero => omega
  | succ fuel ih =>
    obtain ⟨fuel', rfl⟩ := Nat.exists_eq_add_of_lt h'
    rw [show i + fuel' + 1 = (i + fuel') + 1 from rfl]
    unfold collectorsFrom
    dsimp only
    split_ifs
    · rfl
    · rfl
    · split
      · rfl
      · cases i with
        | zero => rfl
        | succ i => exact ih (by omega) (by omega)

theorem collectorForRound_eq {r : ℕ} (hr : 2 ≤ r) (hle : r ≤ rot.order.length + 1)
    (hsize : rot.order.length + 1 < JsNumber.maxExact) :
    collectorForRound host rot shares (.ofInt r) = (collectors host rot shares)[r - 2]? := by
  have hexact : JsNumber.ofInt r = .fin (r : ℕ) := JsNumber.ofInt_natCast (by omega)
  have hnat : (JsNumber.ofInt r).toNat? = some r := by
    rw [hexact, JsNumber.toNat?]
    simp
  have hsafe : (JsNumber.ofInt r).isSafeInteger = true := by
    rw [hexact]
    exact JsNumber.isSafeInteger_iff.mpr ⟨r, by omega, by simp⟩
  unfold collectorForRound
  rw [hnat]
  dsimp only
  rw [if_neg (by simp [hsafe]; omega)]
  exact collectorsFrom_getElem? (by omega) (by omega)

theorem collectorForRound_one : collectorForRound host rot shares (.ofInt 1) = none := by
  have hnat : (JsNumber.ofInt 1).toNat? = some 1 := by decide
  unfold collectorForRound
  rw [hnat]
  dsimp only
  rw [if_pos (Or.inl (by decide))]

theorem collectorsFrom_nodup (fuel r : ℕ) (collected : List String) :
    (collectorsFrom host rot shares fuel r collected).Nodup ∧
      ∀ m ∈ collectorsFrom host rot shares fuel r collected, m ∉ collected := by
  induction fuel generalizing r collected with
  | zero => simp [collectorsFrom]
  | succ fuel ih =>
    unfold collectorsFrom
    dsimp only
    split_ifs with hlast hcollected
    · simp
    · simp [hcollected]
    · split
      · simp
      · rename_i m hm
        have hfresh := List.find?_some hm
        obtain ⟨hnodup, hrest⟩ := ih (r + 1) (m :: collected)
        refine ⟨List.nodup_cons.mpr ⟨fun hin => hrest m hin List.mem_cons_self, hnodup⟩, ?_⟩
        intro other hother
        rcases List.mem_cons.mp hother with rfl | hother
        · simp only [decide_eq_true_eq] at hfresh
          exact hfresh.1
        · exact fun hin => hrest other hother (List.mem_cons_of_mem _ hin)

theorem host_collects_last {fuel r i : ℕ} {collected : List String}
    (h : (collectorsFrom host rot shares fuel r collected)[i]? =
      some (toLowerCase rot.round1.creatorPubkey)) : r + i = rot.order.length + 1 := by
  induction fuel generalizing r i collected with
  | zero => simp [collectorsFrom] at h
  | succ fuel ih =>
    have hseated := collectorsFrom_subset _ _ _ (List.mem_of_getElem? h)
    unfold collectorsFrom at h
    dsimp only at h
    split_ifs at h with hlast
    · simp at h
    · cases i with
      | zero => exact hlast.2
      | succ i => simp at h
    · split at h
      · simp at h
      · rename_i m hm
        cases i with
        | zero =>
          have hfresh := List.find?_some hm
          obtain rfl := Option.some.inj h
          simp only [decide_eq_true_eq] at hfresh
          exact absurd ⟨hseated, trivial⟩ hfresh.2
        | succ i =>
          have := ih h
          omega

/-- Where the collectors end before the last round, the host has collected already or the race of
the round before has no one left. -/
theorem collectorsFrom_stops {fuel r : ℕ} {collected : List String}
    (hfuel : r + fuel ≤ rot.order.length + 2)
    (h : (collectorsFrom host rot shares fuel r collected).length < fuel) :
    let found := collectorsFrom host rot shares fuel r collected
    let seated := toLowerCase rot.round1.creatorPubkey ∈ rot.order
    (seated ∧ toLowerCase rot.round1.creatorPubkey ∈ collected ++ found) ∨
      ¬(seated ∧ r + found.length = rot.order.length + 1) ∧
        ∀ m ∈ raceOf host rot shares (r + found.length - 1), m ∈ collected ++ found ∨
          seated ∧ m = toLowerCase rot.round1.creatorPubkey := by
  induction fuel generalizing r collected with
  | zero => simp at h
  | succ fuel ih =>
    unfold collectorsFrom at h ⊢
    dsimp only at h ⊢
    split_ifs at h ⊢ with hlast hcollected
    · exact Or.inl ⟨hlast.1, by simpa using hcollected⟩
    · -- The host's round is the last one.
      simp only [List.length_singleton] at h
      omega
    · split at h
      · rename_i hnone
        refine Or.inr ⟨by simpa using hlast, fun m hm => ?_⟩
        have hstuck := List.find?_eq_none.mp hnone m (by simpa using hm)
        rw [decide_eq_true_eq] at hstuck
        by_cases hin : m ∈ collected
        · exact Or.inl (by simpa using hin)
        · exact Or.inr (not_not.mp fun hother => hstuck ⟨hin, hother⟩)
      · rename_i m hm
        rw [List.length_cons] at h
        have hrest := @ih (r + 1) (m :: collected) (by omega) (by omega)
        dsimp only at hrest
        have hperm (x : String) (l : List String) :
            x ∈ (m :: collected) ++ l ↔ x ∈ collected ++ m :: l := by
          simp only [List.cons_append, List.mem_cons, List.mem_append]
          tauto
        have hshift : r + ((collectorsFrom host rot shares fuel (r + 1) (m :: collected)).length + 1) =
            r + 1 + (collectorsFrom host rot shares fuel (r + 1) (m :: collected)).length := by
          omega
        simp only [hperm] at hrest
        rw [List.length_cons, hshift]
        exact hrest

/-- Whether the rounds before the last are filled: every member has locked but the collector of the
round. -/
def RoundsFilled (host : Host) (rot : Rotation) (shares : List ShareView) : Prop :=
  ∀ r, 1 ≤ r → r ≤ rot.order.length → ∀ m ∈ rot.order,
    collectorForRound host rot shares (.ofInt r) = some m ∨ m ∈ raceOf host rot shares r

theorem collectors_length (horder : rot.order.Nodup)
    (hsize : rot.order.length + 1 < JsNumber.maxExact) (hfilled : RoundsFilled host rot shares) :
    (collectors host rot shares).length = rot.order.length := by
  set found := collectors host rot shares with hfound
  set hostKey := toLowerCase rot.round1.creatorPubkey with hhostKey
  have hle : found.length ≤ rot.order.length :=
    ((List.subperm_of_subset (collectorsFrom_nodup _ _ _).1 (collectorsFrom_subset _ _ _))).length_le
  by_contra hne
  have hlt : found.length < rot.order.length := by omega
  have hlast (h : hostKey ∈ found) : False := by
    obtain ⟨i, hi, hget⟩ := List.mem_iff_getElem.mp h
    have hindex : found[i]? = some hostKey := by rw [List.getElem?_eq_getElem hi, hget]
    have hround : 2 + i = rot.order.length + 1 := host_collects_last hindex
    omega
  have hstops : (hostKey ∈ rot.order ∧ hostKey ∈ [] ++ found) ∨
      ¬(hostKey ∈ rot.order ∧ 2 + found.length = rot.order.length + 1) ∧
        ∀ m ∈ raceOf host rot shares (2 + found.length - 1), m ∈ [] ++ found ∨
          hostKey ∈ rot.order ∧ m = hostKey :=
    collectorsFrom_stops (by omega) hlt
  rcases hstops with ⟨-, hcollected⟩ | ⟨hround, hrace⟩
  · exact hlast (by simpa using hcollected)
  · -- All members have collected, or are the host.
    have hmembers : ∀ m ∈ rot.order, m ∈ found ∨ hostKey ∈ rot.order ∧ m = hostKey := by
      intro m hm
      rcases hfilled (found.length + 1) (by omega) (by omega) m hm with hcollector | hlocked
      · rcases Nat.eq_zero_or_pos found.length with hzero | hpos
        · rw [hzero] at hcollector
          have hnone : collectorForRound host rot shares (.ofInt (0 + 1 : ℕ)) = none :=
            collectorForRound_one
          rw [hnone] at hcollector
          cases hcollector
        · rw [collectorForRound_eq (by omega) (by omega) hsize] at hcollector
          exact Or.inl (List.mem_of_getElem? hcollector)
      · have hindex : 2 + found.length - 1 = found.length + 1 := by omega
        simpa using hrace m (hindex ▸ hlocked)
    by_cases hseated : hostKey ∈ rot.order
    · have hsub : rot.order ⊆ hostKey :: found := by
        intro m hm
        rcases hmembers m hm with hin | ⟨-, rfl⟩
        · exact List.mem_cons_of_mem _ hin
        · exact List.mem_cons_self
      have hlength := (List.subperm_of_subset horder hsub).length_le
      rw [List.length_cons] at hlength
      exact hround ⟨hseated, by omega⟩
    · have hsub : rot.order ⊆ found := by
        intro m hm
        rcases hmembers m hm with hin | ⟨hhost, -⟩
        · exact hin
        · exact absurd hhost hseated
      have hlength := (List.subperm_of_subset horder hsub).length_le
      omega

/-! ### The order of the members -/

theorem firstByKey_keys_nodup {α : Type} (key : α → String) (l : List α) (seen : List String) :
    ((firstByKey key l seen).map key).Nodup ∧ ∀ a ∈ firstByKey key l seen, key a ∉ seen := by
  induction l generalizing seen with
  | nil => simp [firstByKey]
  | cons a rest ih =>
    unfold firstByKey
    split_ifs with hseen
    · exact ih seen
    · obtain ⟨hnodup, hfresh⟩ := ih (key a :: seen)
      rw [List.map_cons, List.nodup_cons]
      refine ⟨⟨fun hin => ?_, hnodup⟩, fun b hb => ?_⟩
      · obtain ⟨b, hb, hkey⟩ := List.mem_map.mp hin
        exact hfresh b hb (hkey ▸ List.mem_cons_self)
      · rcases List.mem_cons.mp hb with rfl | hb
        · exact hseen
        · exact fun hin => hfresh b hb (List.mem_cons_of_mem _ hin)

theorem mem_firstByKey {α : Type} {key : α → String} {l : List α} {seen : List String}
    (hkey : ∀ a ∈ l, ∀ b ∈ l, key a = key b → a = b) {a : α} :
    a ∈ firstByKey key l seen ↔ a ∈ l ∧ key a ∉ seen := by
  refine ⟨fun h => ⟨(firstByKey_sublist _ _ _).subset h, (firstByKey_keys_nodup _ _ _).2 a h⟩, ?_⟩
  rintro ⟨ha, hseen⟩
  induction l generalizing seen with
  | nil => cases ha
  | cons b rest ih =>
    have hrest : ∀ a ∈ rest, ∀ b ∈ rest, key a = key b → a = b := fun a ha b hb =>
      hkey a (List.mem_cons_of_mem _ ha) b (List.mem_cons_of_mem _ hb)
    unfold firstByKey
    split_ifs with hb
    · rcases List.mem_cons.mp ha with rfl | ha
      · exact absurd hb hseen
      · exact ih hrest ha hseen
    · by_cases hab : a = b
      · exact hab ▸ List.mem_cons_self
      · rcases List.mem_cons.mp ha with rfl | ha
        · exact absurd rfl hab
        · refine List.mem_cons_of_mem _ (ih hrest ha ?_)
          rw [List.mem_cons, not_or]
          exact ⟨fun h => hab (hkey a (List.mem_cons_of_mem _ ha) b List.mem_cons_self h), hseen⟩

theorem rotationOrder_nodup (creatorPubkey : String) (locks : List Standing) :
    (rotationOrder creatorPubkey locks).Nodup := by
  have hmembers : ((rankStandings (firstByKey Standing.member locks [])).map
      Standing.member).Nodup := by
    have hperm := (List.perm_insertionSort (fun a b => Standing.before a b = true ∨ a = b)
      (firstByKey Standing.member locks [])).map Standing.member
    exact hperm.nodup_iff.mpr (firstByKey_keys_nodup _ _ _).1
  unfold rotationOrder
  refine List.nodup_append.mpr ⟨hmembers.filter _, hmembers.filter _, ?_⟩
  rintro a ha b hb rfl
  simp only [List.mem_filter, decide_eq_true_eq] at ha hb
  exact ha.2 hb.2

/-- The order of the members depends on the standings of the first round, one for each member, and
not on how they are listed. -/
theorem rotationOrder_congr {creatorPubkey : String} (hclock : ∀ s ∈ l, s.lockedAt ≠ .nan)
    (hmember : ∀ s ∈ l, ∀ t ∈ l, s.member = t.member → s = t) (h : ∀ s, s ∈ l ↔ s ∈ l') :
    rotationOrder creatorPubkey l = rotationOrder creatorPubkey l' := by
  have hmember' : ∀ s ∈ l', ∀ t ∈ l', s.member = t.member → s = t := fun s hs t ht =>
    hmember s ((h s).mpr hs) t ((h t).mpr ht)
  have hnodup (l : List Standing) : (firstByKey Standing.member l []).Nodup :=
    List.Nodup.of_map _ (firstByKey_keys_nodup _ _ _).1
  have hperm : (firstByKey Standing.member l []).Perm (firstByKey Standing.member l' []) := by
    rw [List.perm_ext_iff_of_nodup (hnodup l) (hnodup l')]
    intro s
    rw [mem_firstByKey hmember, mem_firstByKey hmember', h s]
  have hrank := rankStandings_perm
    (fun s hs => hclock s ((firstByKey_sublist _ _ _).subset hs)) hperm
  unfold rotationOrder
  rw [hrank]

def Seats (round1Id : String) (e : ShareView) : Prop :=
  e.chamaPolicy = some .shareV1 ∧ e.parent = some round1Id

theorem mem_commitmentLocks_iff {round1Id : String}
    (hids : ∀ e ∈ shares, Seats round1Id e → ∀ e' ∈ shares, Seats round1Id e' → e.id = e'.id →
      e = e') {s : Standing} :
    s ∈ commitmentLocks round1Id shares ↔
      ∃ e ∈ shares, Seats round1Id e ∧ shareStanding e = some s := by
  have hkey : ∀ e ∈ shares.filter (fun e => e.chamaPolicy = some .shareV1 ∧
      e.parent = some round1Id), ∀ e' ∈ shares.filter (fun e => e.chamaPolicy = some .shareV1 ∧
        e.parent = some round1Id), e.id = e'.id → e = e' := by
    intro e he e' he'
    simp only [List.mem_filter, decide_eq_true_eq] at he he'
    exact hids e he.1 he.2 e' he'.1 he'.2
  simp only [commitmentLocks, List.mem_filterMap, mem_firstByKey hkey, List.mem_filter,
    decide_eq_true_eq, List.not_mem_nil, not_false_eq_true, and_true]
  constructor
  · rintro ⟨e, ⟨he, hseats⟩, hs⟩
    exact ⟨e, he, hseats, hs⟩
  · rintro ⟨e, he, hseats, hs⟩
    exact ⟨e, ⟨he, hseats⟩, hs⟩

/-! ### Turns -/

variable {circle : CircleRound} {escrows others : List EscrowState}

def sealedRotation (circle : CircleRound) (escrows : List EscrowState) : Rotation where
  round1Id := circle.circleId
  round1 := circle
  order := rotationOrder circle.creatorPubkey
    (commitmentLocks circle.circleId (escrows.map EscrowState.shareView))

/-- Who collects in round `k`. -/
def turn (host : Host) (circle : CircleRound) (escrows : List EscrowState) (k : ℕ) :
    Option String :=
  collectorForRound host (sealedRotation circle escrows) (escrows.map EscrowState.shareView)
    (.ofInt k)

/-- Share escrows of a circle: an id stands for one escrow, and a share of the first round sits in
the circle under the id of its member.  An array has less than `2^32` elements. -/
structure ShareEscrows (host : Host) (circle : CircleRound) (escrows : List EscrowState) : Prop where
  ids : ∀ e ∈ escrows, ∀ e' ∈ escrows, e.id = e'.id → e = e'
  seats : ∀ e ∈ escrows, e.chamaPolicy = some .shareV1 → e.parent = some circle.circleId →
    SitsIn host e circle
  size : escrows.length < 2 ^ 32

theorem clockedShares (escrows : List EscrowState) :
    ClockedShares (escrows.map EscrowState.shareView) := by
  intro view hview hnan
  obtain ⟨e, -, rfl⟩ := List.mem_map.mp hview
  obtain ⟨v, -, htime⟩ := Option.map_eq_some_iff.mp hnan
  exact v.raw.createdAt_ne htime

theorem Seats.ofRound {e : ShareView} {round1Id : String} (h : Seats round1Id e) :
    OfRound host round1Id 1 e :=
  ⟨by rw [h.1, if_pos rfl], by rw [h.2, if_pos rfl, Option.map_some]⟩

/-- Two lists agree on the rounds before `k`. -/
def AgreeBefore (host : Host) (circle : CircleRound) (k : ℕ) (escrows others : List EscrowState) :
    Prop :=
  ∀ e, (∃ r, 1 ≤ r ∧ r < k ∧ OfRound host circle.circleId r e.shareView) →
    (e ∈ others ↔ e ∈ escrows)

theorem AgreeBefore.view {k r : ℕ} (h : AgreeBefore host circle k escrows others) (hr : 1 ≤ r)
    (hrk : r < k) {view : ShareView} (hround : OfRound host circle.circleId r view) :
    view ∈ escrows.map EscrowState.shareView ↔ view ∈ others.map EscrowState.shareView := by
  simp only [List.mem_map]
  constructor
  · rintro ⟨e, he, rfl⟩
    exact ⟨e, (h e ⟨r, hr, hrk, hround⟩).mpr he, rfl⟩
  · rintro ⟨e, he, rfl⟩
    exact ⟨e, (h e ⟨r, hr, hrk, hround⟩).mp he, rfl⟩

theorem ShareEscrows.standing_unique (h : ShareEscrows host circle escrows) {e e' : EscrowState}
    (he : e ∈ escrows) (he' : e' ∈ escrows) (hseats : Seats circle.circleId e.shareView)
    (hseats' : Seats circle.circleId e'.shareView) {s s' : Standing}
    (hs : shareStanding e.shareView = some s) (hs' : shareStanding e'.shareView = some s')
    (hmember : s.member = s'.member) : s = s' := by
  have hseat {e : EscrowState} (he : e ∈ escrows) (hseats : Seats circle.circleId e.shareView)
      {s : Standing} (hs : shareStanding e.shareView = some s) :
      e.id = shareEscrowId host circle.circleId s.member circle.roundIndex := by
    obtain ⟨m, hbuyer, hhex, hid⟩ := (h.seats e he hseats.1 hseats.2).member
    unfold shareStanding at hs
    split at hs
    · rename_i time member htime hview
      obtain rfl := Option.some.inj hs
      obtain rfl : m = member := Option.some.inj (hbuyer.symm.trans hview)
      rw [hid, toLowerCase_of_isLowerHex hhex]
    · cases hs
  have hsame := h.ids e he e' he' (by rw [hseat he hseats hs, hseat he' hseats' hs', hmember])
  subst hsame
  exact Option.some.inj (hs.symm.trans hs')

theorem sealedRotation_congr (h : ShareEscrows host circle escrows) {k : ℕ} (hk : 2 ≤ k)
    (hagree : AgreeBefore host circle k escrows others) :
    sealedRotation circle others = sealedRotation circle escrows := by
  have hview {view : ShareView} (hseats : Seats circle.circleId view) :=
    hagree.view le_rfl (by omega) (hseats.ofRound)
  have hids : ∀ v ∈ escrows.map EscrowState.shareView, Seats circle.circleId v →
      ∀ v' ∈ escrows.map EscrowState.shareView, Seats circle.circleId v' → v.id = v'.id →
        v = v' := by
    intro v hv _ v' hv' _ hid
    obtain ⟨e, he, rfl⟩ := List.mem_map.mp hv
    obtain ⟨e', he', rfl⟩ := List.mem_map.mp hv'
    rw [h.ids e he e' he' hid]
  have hids' : ∀ v ∈ others.map EscrowState.shareView, Seats circle.circleId v →
      ∀ v' ∈ others.map EscrowState.shareView, Seats circle.circleId v' → v.id = v'.id →
        v = v' := fun v hv hseats v' hv' hseats' =>
    hids v ((hview hseats).mpr hv) hseats v' ((hview hseats').mpr hv') hseats'
  have horder : rotationOrder circle.creatorPubkey
      (commitmentLocks circle.circleId (escrows.map EscrowState.shareView)) =
        rotationOrder circle.creatorPubkey
          (commitmentLocks circle.circleId (others.map EscrowState.shareView)) := by
    refine rotationOrder_congr (fun s hs => ?_) (fun s hs t ht hmember => ?_) fun s => ?_
    · obtain ⟨v, hv, -, hstanding⟩ := (mem_commitmentLocks_iff hids).mp hs
      exact (clockedShares escrows).standing hv hstanding
    · obtain ⟨v, hv, hseats, hstanding⟩ := (mem_commitmentLocks_iff hids).mp hs
      obtain ⟨v', hv', hseats', hstanding'⟩ := (mem_commitmentLocks_iff hids).mp ht
      obtain ⟨e, he, rfl⟩ := List.mem_map.mp hv
      obtain ⟨e', he', rfl⟩ := List.mem_map.mp hv'
      exact h.standing_unique he he' hseats hseats' hstanding hstanding' hmember
    · rw [mem_commitmentLocks_iff hids, mem_commitmentLocks_iff hids']
      constructor
      · rintro ⟨v, hv, hseats, hs⟩
        exact ⟨v, (hview hseats).mp hv, hseats, hs⟩
      · rintro ⟨v, hv, hseats, hs⟩
        exact ⟨v, (hview hseats).mpr hv, hseats, hs⟩
  rw [sealedRotation, sealedRotation, horder]

theorem collectorsFrom_congr {fuel r : ℕ} {collected : List String} (hr : 2 ≤ r)
    (h : ∀ j, 1 ≤ j → j < r + fuel - 1 → ∀ p : String → Bool,
      (raceOf host rot shares j).find? p = (raceOf host rot shares' j).find? p) :
    collectorsFrom host rot shares fuel r collected =
      collectorsFrom host rot shares' fuel r collected := by
  induction fuel generalizing r collected with
  | zero => rfl
  | succ fuel ih =>
    unfold collectorsFrom
    dsimp only
    split_ifs
    · rfl
    · rfl
    · rw [h (r - 1) (by omega) (by omega)]
      split
      · rfl
      · rw [ih (by omega) fun j hj hlt => h j hj (by omega)]

theorem ShareEscrows.rounds_small (h : ShareEscrows host circle escrows) :
    (sealedRotation circle escrows).order.length + 1 < JsNumber.maxExact := by
  have hsize := h.size
  have hlength : (sealedRotation circle escrows).order.length ≤
      (escrows.map EscrowState.shareView).length :=
    (rotationOrder_length _ _).trans (commitmentLocks_length _ _)
  rw [List.length_map] at hlength
  rw [JsNumber.maxExact]
  omega

/-- Lists that agree on the rounds before `k` name one collector for round `k`. -/
theorem turn_congr (h : ShareEscrows host circle escrows) {k : ℕ} (hk : 2 ≤ k)
    (hlast : k ≤ (sealedRotation circle escrows).order.length + 1)
    (hagree : AgreeBefore host circle k escrows others) :
    turn host circle others k = turn host circle escrows k := by
  have hsize := h.rounds_small
  have hfuel {shares : List ShareView} :
      (collectors host (sealedRotation circle escrows) shares)[k - 2]? =
        (collectorsFrom host (sealedRotation circle escrows) shares (k - 1) 2 [])[k - 2]? :=
    collectorsFrom_getElem? (by omega) (by omega)
  rw [turn, turn, sealedRotation_congr h hk hagree, collectorForRound_eq hk hlast hsize,
    collectorForRound_eq hk hlast hsize, hfuel, hfuel,
    @collectorsFrom_congr host _ (others.map EscrowState.shareView)
      (escrows.map EscrowState.shareView) _ _ _ le_rfl]
  intro j hj hlt p
  refine race_find?_congr (clockedShares others) (clockedShares escrows) (fun view hround => ?_) p
  exact (hagree.view hj (by omega) hround).symm

/-- In the rounds of a sealed circle, sealed members take turns: no one twice, the host in the last
round alone, everyone once when all rounds are filled; and the collector of a round depends on the
escrows of the rounds before it, not on how they are listed or on what comes later. -/
theorem rotation_turns (host : Host) (circle : CircleRound) (escrows : List EscrowState)
    (h : ShareEscrows host circle escrows) :
    let order := (sealedRotation circle escrows).order
    (∀ k m, 2 ≤ k → k ≤ order.length + 1 → turn host circle escrows k = some m → m ∈ order) ∧
    (∀ k k' m, 2 ≤ k → k ≤ order.length + 1 → 2 ≤ k' → k' ≤ order.length + 1 →
      turn host circle escrows k = some m → turn host circle escrows k' = some m → k = k') ∧
    (∀ k, 2 ≤ k → k ≤ order.length + 1 →
      turn host circle escrows k = some (toLowerCase circle.creatorPubkey) →
        k = order.length + 1) ∧
    (RoundsFilled host (sealedRotation circle escrows) (escrows.map EscrowState.shareView) →
      ∀ m ∈ order, ∃! k, (2 ≤ k ∧ k ≤ order.length + 1) ∧ turn host circle escrows k = some m) ∧
    ∀ k others, 2 ≤ k → k ≤ order.length + 1 → AgreeBefore host circle k escrows others →
      (sealedRotation circle others).order = order ∧
        turn host circle others k = turn host circle escrows k := by
  intro order
  have hsize := h.rounds_small
  set found := collectors host (sealedRotation circle escrows) (escrows.map EscrowState.shareView)
    with hfound
  have hnodup : found.Nodup := (collectorsFrom_nodup _ _ _).1
  have hturn {k : ℕ} (hk : 2 ≤ k) (hlast : k ≤ order.length + 1) :
      turn host circle escrows k = found[k - 2]? := collectorForRound_eq hk hlast hsize
  have hunique {k k' : ℕ} {m : String} (hk : 2 ≤ k) (hlast : k ≤ order.length + 1) (hk' : 2 ≤ k')
      (hlast' : k' ≤ order.length + 1) (hm : turn host circle escrows k = some m)
      (hm' : turn host circle escrows k' = some m) : k = k' := by
    rw [hturn hk hlast] at hm
    rw [hturn hk' hlast'] at hm'
    have hlt : k - 2 < found.length := (List.getElem?_eq_some_iff.mp hm).1
    have hsame : k - 2 = k' - 2 := (List.getElem?_inj hlt hnodup).mp (hm.trans hm'.symm)
    omega
  refine ⟨fun k m hk hlast hm => ?_, fun k k' m => hunique, fun k hk hlast hm => ?_,
    fun hfilled m hm => ?_, fun k others hk hlast hagree => ?_⟩
  · rw [hturn hk hlast] at hm
    exact collectorsFrom_subset _ _ _ (List.mem_of_getElem? hm)
  · rw [hturn hk hlast] at hm
    have hround : 2 + (k - 2) = order.length + 1 := host_collects_last hm
    omega
  · have hlength : found.length = order.length :=
      collectors_length (rotationOrder_nodup _ _) hsize hfilled
    have hall : m ∈ found := subset_of_nodup_of_length hnodup (collectorsFrom_subset _ _ _)
      hlength.ge hm
    obtain ⟨i, hi, hget⟩ := List.mem_iff_getElem.mp hall
    have hindex : turn host circle escrows (i + 2) = some m := by
      rw [hturn (by omega) (by omega), Nat.add_sub_cancel, List.getElem?_eq_getElem hi, hget]
    refine ⟨i + 2, ⟨⟨by omega, by omega⟩, hindex⟩, fun k hk => ?_⟩
    exact hunique hk.1.1 hk.1.2 (by omega) (by omega) hk.2 hindex
  · exact ⟨congrArg Rotation.order (sealedRotation_congr h hk hagree), turn_congr h hk hlast hagree⟩

/-- The fastest member of the sample collects first. -/
theorem rotation_turns_sample : ∃ circle,
    circleFromEscrow (sampleRound "sm_circle" 1800000000 1 none) = some circle ∧
      turn sealedHost circle sealedShares 2 = some (hexKey 'b') ∧
        hexKey 'b' ∈ (sealedRotation circle sealedShares).order := by
  have hsome : (circleFromEscrow (sampleRound "sm_circle" 1800000000 1 none)).any (fun circle =>
      circle.circleId = "sm_circle" && circle.roundIndex = 1
        && (sealedRotation circle sealedShares).order.length = 3
        && turn sealedHost circle sealedShares 2 = some (hexKey 'b')) = true := by
    decide +kernel
  obtain ⟨circle, hcircle, hcheck⟩ := (Option.any_eq_true _ _).mp hsome
  simp only [Bool.and_eq_true, decide_eq_true_eq] at hcheck
  obtain ⟨⟨⟨hid, hindex⟩, hlength⟩, hturn⟩ := hcheck
  have hescrows : ShareEscrows sealedHost circle sealedShares := by
    refine ⟨fun e he e' he' => ?_, fun e he _ _ => ?_, by decide⟩
    · exact List.inj_on_of_nodup_map sealedCycle_evaluated.2.2.2 he he'
    · obtain ⟨member, time, rfl, hkey, hseat⟩ := sealedShares_seated he
      refine ⟨⟨_, rfl, hkey, ?_⟩, fun hcollection => ?_, ?_⟩
      · rw [hid, hindex]
        exact hseat
      · exact absurd hcollection.2 (by rw [hindex]; decide)
      · rintro ⟨⟩
  exact ⟨circle, hcircle, hturn, (rotation_turns sealedHost circle sealedShares hescrows).1 2 _ le_rfl
    (by omega) hturn⟩

end ChamaEscrow
