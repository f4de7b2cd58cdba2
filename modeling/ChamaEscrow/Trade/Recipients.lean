import ChamaEscrow.Trade.ShareWriters
import ChamaEscrow.Trade.WithheldShares
import Mathlib.Data.Finset.Card

/-!
# Who receives the arbiter's share

A LOCK routes the arbiter's share to the assigned arbiter and to backups out of the pool, so few
that the pool as a whole does not hold it.  The order is built key by key, each pick excluding the
principals and the keys before it up to case; `Backups` is what the loop establishes.

The recipients are cut off below the *length* of the pool.  A pool that lists a key twice is longer
than it has keys, and then the cut can leave no key out: `WholePool` says when.  `recipients_clean`
is the result, for all pools of keys and all seats.
-/

namespace ChamaEscrow

open Js Library

variable {host : Host} {s s' : EscrowState}

/-! ### One pick -/

theorem filterByKey_keys (keep : Bool) (exclude keys : List String) :
    filterByKey keep exclude (keys.map .str) =
      .ok (keys.filter fun k => (toLowerCase k ∈ exclude) = (keep = true)) := by
  induction keys with
  | nil => rfl
  | cons k rest ih =>
    simp only [List.map_cons, filterByKey, JsValue.lowered, ih, JsValue.text?, ok_bind,
      Option.getD_some, List.filter_cons, decide_eq_true_eq]
    rfl

def candidates (keys : List String) (exclude : List (Option String)) : List String :=
  keys.filter fun k => toLowerCase k ∉ excludedKeys exclude

theorem pickArbiterFromPool_keys (keys : List String) (escrowId : String)
    (exclude : List (Option String)) :
    pickArbiterFromPool (.arr (keys.map .str)) escrowId exclude =
      .ok (pickCandidate (candidates keys exclude) escrowId) := by
  simp [pickArbiterFromPool, JsValue.items, filterByKey_keys, candidates]

variable {exclude : List (Option String)} {escrowId : String} {pk : String}

theorem mem_of_pickCandidate {keys : List String}
    (h : truthyKey (pickCandidate (candidates keys exclude) escrowId) = some pk) :
    pk ∈ keys ∧ pk ≠ "" ∧ toLowerCase pk ∉ excludedKeys exclude := by
  obtain ⟨hpick, hne⟩ := truthyKey_eq_some h
  have hmem := List.mem_filter.mp (List.mem_of_getElem? hpick)
  exact ⟨hmem.1, hne, by simpa using hmem.2⟩

theorem excluded_of_pickCandidate {keys : List String} (hkeys : "" ∉ keys)
    (h : truthyKey (pickCandidate (candidates keys exclude) escrowId) = none) :
    ∀ k ∈ keys, toLowerCase k ∈ excludedKeys exclude := by
  have hcandidates : ∀ k ∈ candidates keys exclude, k ≠ "" := by
    rintro k hk rfl
    exact hkeys (List.mem_filter.mp hk).1
  have hnil : candidates keys exclude = [] := by
    by_contra hne
    have hsome := (pickCandidate_isSome escrowId hcandidates).mpr hne
    simp [h] at hsome
  intro k hk
  have := List.filter_eq_nil_iff.mp hnil k hk
  simpa using this

theorem excludedKeys_append (a b : List (Option String)) :
    excludedKeys (a ++ b) = excludedKeys a ++ excludedKeys b :=
  List.filterMap_append ..

theorem excludedKeys_some {keys : List String} (h : ∀ k ∈ keys, k ≠ "") :
    excludedKeys (keys.map some) = keys.map toLowerCase := by
  induction keys with
  | nil => rfl
  | cons k rest ih =>
    have hkey : truthyKey ((some k).map toLowerCase) = some (toLowerCase k) :=
      truthyKey_some (toLowerCase_ne (h k List.mem_cons_self))
    have hrest := ih fun k hk => h k (List.mem_cons_of_mem _ hk)
    rw [List.map_cons, List.map_cons, ← hrest]
    simp only [excludedKeys, List.filterMap_cons, hkey]

/-! ### The order -/

/-- What the loop that appends the backups establishes. -/
structure Backups (keys : List String) (principals : List (Option String))
    (order found : List String) : Prop where
  start : order <+: found
  member : ∀ pk ∈ found, pk ∈ order ∨
    pk ∈ keys ∧ pk ≠ "" ∧ toLowerCase pk ∉ excludedKeys principals
  distinct : (found.map toLowerCase).Nodup
  capped : found.length ≤ arbiterPoolShareCap
  full : "" ∉ keys → found.length = arbiterPoolShareCap ∨
    ∀ k ∈ keys, toLowerCase k ∈ excludedKeys (principals ++ found.map some)

theorem appendBackups_spec {keys : List String}
    {principals : List (Option String)} {fuel : ℕ} {order found : List String}
    (h : appendBackups (keys.map .str) escrowId principals fuel order = .ok found)
    (hfuel : arbiterPoolShareCap ≤ fuel + order.length)
    (hcapped : order.length ≤ arbiterPoolShareCap) (hne : ∀ pk ∈ order, pk ≠ "")
    (hdistinct : (order.map toLowerCase).Nodup) : Backups keys principals order found := by
  induction fuel generalizing order with
  | zero =>
    obtain rfl := Except.ok.inj h
    exact ⟨List.prefix_rfl, fun _ hpk => Or.inl hpk, hdistinct, hcapped,
      fun _ => Or.inl (by omega)⟩
  | succ fuel ih =>
    rw [appendBackups] at h
    split_ifs at h with hfull
    · obtain rfl := Except.ok.inj h
      exact ⟨List.prefix_rfl, fun _ hpk => Or.inl hpk, hdistinct, hcapped,
        fun _ => Or.inl (by omega)⟩
    · rw [pickArbiterFromPool_keys, ok_bind] at h
      split at h
      · rename_i hnone
        obtain rfl := pure_eq_ok.mp h
        exact ⟨List.prefix_rfl, fun _ hpk => Or.inl hpk, hdistinct, hcapped,
          fun hkeys => Or.inr (excluded_of_pickCandidate hkeys hnone)⟩
      · rename_i pk hpk
        obtain ⟨hmem, hpkNe, hfresh⟩ := mem_of_pickCandidate hpk
        rw [excludedKeys_append, excludedKeys_some hne, List.mem_append, not_or] at hfresh
        have hlength : (order ++ [pk]).length = order.length + 1 := by simp
        have hrest := ih h (by omega) (by omega) (fun k hk => by
            rcases List.mem_append.mp hk with hk | hk
            · exact hne k hk
            · rwa [List.mem_singleton.mp hk])
          (by
            rw [List.map_append, List.map_singleton, List.nodup_append]
            refine ⟨hdistinct, List.nodup_singleton _, ?_⟩
            rintro a ha b hb rfl
            rw [List.mem_singleton] at hb
            exact hfresh.2 (hb ▸ ha))
        refine ⟨(List.prefix_append ..).trans hrest.start, fun k hk => ?_, hrest.distinct,
          hrest.capped, hrest.full⟩
        rcases hrest.member k hk with hk | hk
        · rcases List.mem_append.mp hk with hk | hk
          · exact Or.inl hk
          · rw [List.mem_singleton.mp hk]
            exact Or.inr ⟨hmem, hpkNe, hfresh.1⟩
        · exact Or.inr hk

/-! ### The recipients -/

def arbiterShareRecipients (state : EscrowState) : Except JsError (List String) :=
  arbiterShareRecipientsFor state.id (state.communityArbiters.orElse (.arr []))
    state.participants.buyer state.participants.seller state.participants.arbiter

/-- Recipients as a LOCK should route them. -/
structure CleanRecipients (s : EscrowState) (keys found : List String) : Prop where
  distinct : found.Nodup
  assigned : ∀ pk, truthyKey s.participants.arbiter = some pk → pk ∈ found
  capped : found.length ≤ 3
  principals : ∀ pk ∈ found, s.participants.buyer ≠ some pk ∧ s.participants.seller ≠ some pk
  priority : ∃ order, arbiterPriorityOrder s = .ok order ∧ found <+: order
  proper : found ⊆ keys ∧ ¬keys ⊆ found

def AssignedFromPool (s : EscrowState) (keys : List String) : Prop :=
  ∀ pk, truthyKey s.participants.arbiter = some pk →
    pk ∈ keys ∧ s.participants.buyer ≠ some pk ∧ s.participants.seller ≠ some pk

/-- A pool list that is longer than it has keys, has no more of them than can receive a share, and
none that the picks would leave out: an empty one, a principal's, or one that differs from another
by case alone. -/
structure WholePool (s : EscrowState) (keys : List String) : Prop where
  repeated : ¬keys.Nodup
  small : keys.toFinset.card ≤ 3
  nonempty : "" ∉ keys
  outside : ∀ pk ∈ keys, truthyKey s.participants.arbiter = some pk ∨
    toLowerCase pk ∉ excludedKeys [s.participants.buyer, s.participants.seller]
  cased : ∀ pk ∈ keys, ∀ other ∈ keys, toLowerCase pk = toLowerCase other → pk = other

section

variable {keys order : List String}

theorem arbiterPriorityOrder_keys (hpool : s.communityArbiters = .arr (keys.map .str)) :
    ∃ order, arbiterPriorityOrder s = .ok order ∧
      Backups keys [s.participants.buyer, s.participants.seller]
        (truthyKey s.participants.arbiter).toList order ∧
      arbiterShareRecipients s = .ok (order.take (max 1 (min 3 (keys.length - 1)))) := by
  obtain ⟨order, horder⟩ := arbiterPriorityOrderFor_ok ⟨keys, rfl⟩ s.id s.participants.buyer
    s.participants.seller s.participants.arbiter
  have hassigned : ∀ pk ∈ (truthyKey s.participants.arbiter).toList, pk ≠ "" := by
    intro pk hpk
    rw [Option.mem_toList] at hpk
    exact (truthyKey_eq_some hpk).2
  have hlength : (truthyKey s.participants.arbiter).toList.length ≤ 1 := Option.length_toList_le
  refine ⟨order, ?_, ?_, ?_⟩
  · rw [arbiterPriorityOrder, hpool]
    exact horder
  · rw [arbiterPriorityOrderFor, JsValue.spread, ok_bind] at horder
    refine appendBackups_spec horder (by omega) (hlength.trans (by decide)) hassigned ?_
    cases truthyKey s.participants.arbiter <;> simp
  · have hkeys : (JsValue.arr (keys.map .str)).orElse (.arr []) = .arr (keys.map .str) := rfl
    rw [arbiterShareRecipients, hpool, hkeys, arbiterShareRecipientsFor, horder, ok_bind,
      JsValue.spread, ok_bind, List.length_map]
    rfl

variable (horder : Backups keys [s.participants.buyer, s.participants.seller]
  (truthyKey s.participants.arbiter).toList order)
include horder

theorem Backups.nodup : order.Nodup := List.Nodup.of_map _ horder.distinct

theorem Backups.ne_empty (h : pk ∈ order) : pk ≠ "" := by
  rcases horder.member pk h with hassigned | hbackup
  · rw [Option.mem_toList] at hassigned
    exact (truthyKey_eq_some hassigned).2
  · exact hbackup.2.1

theorem Backups.subset (h : AssignedFromPool s keys) : order ⊆ keys := by
  intro pk hpk
  rcases horder.member pk hpk with hassigned | hbackup
  · rw [Option.mem_toList] at hassigned
    exact (h pk hassigned).1
  · exact hbackup.1

theorem Backups.no_principal (h : AssignedFromPool s keys) (hpk : pk ∈ order) :
    s.participants.buyer ≠ some pk ∧ s.participants.seller ≠ some pk := by
  rcases horder.member pk hpk with hassigned | ⟨-, hne, hfresh⟩
  · rw [Option.mem_toList] at hassigned
    exact (h pk hassigned).2
  · have hkey : truthyKey ((some pk).map toLowerCase) = some (toLowerCase pk) :=
      truthyKey_some (toLowerCase_ne hne)
    constructor
    · intro hbuyer
      refine hfresh (List.mem_filterMap.mpr ⟨some pk, ?_, hkey⟩)
      simp [hbuyer]
    · intro hseller
      refine hfresh (List.mem_filterMap.mpr ⟨some pk, ?_, hkey⟩)
      simp [hseller]

theorem Backups.whole (h : AssignedFromPool s keys) (hwhole : WholePool s keys) : keys ⊆ order := by
  have hcard : order.toFinset.card = order.length := List.toFinset_card_of_nodup horder.nodup
  have hsubset : order.toFinset ⊆ keys.toFinset := by
    intro pk hpk
    rw [List.mem_toFinset] at hpk ⊢
    exact horder.subset h hpk
  rcases horder.full hwhole.nonempty with hfull | hexcluded
  · have heq := Finset.eq_of_subset_of_card_le hsubset (by
      rw [hcard, hfull]
      exact hwhole.small)
    intro pk hpk
    have hmem : pk ∈ order.toFinset := heq ▸ List.mem_toFinset.mpr hpk
    exact List.mem_toFinset.mp hmem
  · intro pk hpk
    have hpkExcluded := hexcluded pk hpk
    rw [excludedKeys_append, excludedKeys_some fun k hk => horder.ne_empty hk,
      List.mem_append] at hpkExcluded
    rcases hpkExcluded with hprincipal | hordered
    · rcases hwhole.outside pk hpk with hassigned | hout
      · exact horder.start.subset (Option.mem_toList.mpr hassigned)
      · exact absurd hprincipal hout
    · obtain ⟨other, hother, hlower⟩ := List.mem_map.mp hordered
      rw [hwhole.cased pk hpk other (horder.subset h hother) hlower.symm]
      exact hother

theorem Backups.proper_iff (h : AssignedFromPool s keys) (htwo : ∃ a ∈ keys, ∃ b ∈ keys, a ≠ b) :
    keys ⊆ order.take (max 1 (min 3 (keys.length - 1))) ↔ WholePool s keys := by
  have hlong : 2 ≤ keys.toFinset.card := by
    obtain ⟨a, ha, b, hb, hab⟩ := htwo
    exact Finset.one_lt_card.mpr ⟨a, List.mem_toFinset.mpr ha, b, List.mem_toFinset.mpr hb, hab⟩
  have hlength := List.toFinset_card_le keys
  have hcard {found : List String} (hfound : found.Nodup) (hsub : keys ⊆ found) :
      keys.toFinset.card ≤ found.length := by
    rw [← List.toFinset_card_of_nodup hfound]
    exact Finset.card_le_card fun pk hpk => List.mem_toFinset.mpr (hsub (List.mem_toFinset.mp hpk))
  constructor
  · intro hsub
    have hcut := hcard (horder.nodup.sublist (List.take_sublist ..)) hsub
    rw [List.length_take] at hcut
    have hall : keys ⊆ order := fun pk hpk => List.mem_of_mem_take (hsub hpk)
    refine ⟨fun hnodup => ?_, by omega, fun hempty => horder.ne_empty (hall hempty) rfl,
      fun pk hpk => ?_, fun pk hpk other hother hlower => ?_⟩
    · rw [List.toFinset_card_of_nodup hnodup] at hcut hlong
      omega
    · rcases horder.member pk (hall hpk) with hassigned | hbackup
      · exact Or.inl (Option.mem_toList.mp hassigned)
      · exact Or.inr hbackup.2.2
    · exact List.inj_on_of_nodup_map horder.distinct (hall hpk) (hall hother) hlower
  · intro hwhole
    have hall := horder.whole h hwhole
    have hlt : keys.toFinset.card < keys.length := by
      refine lt_of_le_of_ne hlength fun heq => hwhole.repeated ?_
      exact Multiset.coe_nodup.mp (Multiset.toFinset_card_eq_card_iff_nodup.mp heq)
    have hsmall := hwhole.small
    have hordered : order.length ≤ keys.toFinset.card := by
      rw [← List.toFinset_card_of_nodup horder.nodup]
      exact Finset.card_le_card fun pk hpk =>
        List.mem_toFinset.mpr (horder.subset h (List.mem_toFinset.mp hpk))
    rwa [List.take_of_length_le (by omega)]

end

/-- For every trade whose pool lists two different keys, the recipients are clean exactly when the
assigned arbiter is of the pool and the pool is not one that the cut leaves whole. -/
theorem recipients_clean (s : EscrowState) (keys : List String)
    (hpool : s.communityArbiters = .arr (keys.map .str)) (htwo : ∃ a ∈ keys, ∃ b ∈ keys, a ≠ b) :
    ∃ found, arbiterShareRecipients s = .ok found ∧
      (CleanRecipients s keys found ↔ AssignedFromPool s keys ∧ ¬WholePool s keys) := by
  obtain ⟨order, hpriority, horder, hfound⟩ := arbiterPriorityOrder_keys hpool
  have hassigned {pk : String} (h : truthyKey s.participants.arbiter = some pk) :
      pk ∈ order.take (max 1 (min 3 (keys.length - 1))) := by
    have hstart := horder.start
    rw [h] at hstart
    obtain ⟨rest, rfl⟩ := hstart
    obtain ⟨n, hn⟩ : ∃ n, max 1 (min 3 (keys.length - 1)) = n + 1 :=
      ⟨max 1 (min 3 (keys.length - 1)) - 1, by omega⟩
    rw [hn]
    exact List.mem_cons_self
  refine ⟨_, hfound, fun hclean => ?_, fun ⟨hfrom, hwhole⟩ => ?_⟩
  · have hfrom : AssignedFromPool s keys := fun pk hpk =>
      ⟨hclean.proper.1 (hassigned hpk), hclean.principals pk (hassigned hpk)⟩
    exact ⟨hfrom, fun hwhole => hclean.proper.2 ((horder.proper_iff hfrom htwo).mpr hwhole)⟩
  · have hmem {pk : String} (hpk : pk ∈ order.take (max 1 (min 3 (keys.length - 1)))) : pk ∈ order :=
      List.mem_of_mem_take hpk
    exact {
      distinct := horder.nodup.sublist (List.take_sublist ..)
      assigned := fun _ => hassigned
      capped := by
        rw [List.length_take]
        omega
      principals := fun pk hpk => horder.no_principal hfrom (hmem hpk)
      priority := ⟨order, hpriority, List.take_prefix ..⟩
      proper := ⟨fun pk hpk => horder.subset hfrom (hmem hpk),
        fun hsub => hwhole ((horder.proper_iff hfrom htwo).mp hsub)⟩ }

/-! ### A pool that lists a key twice -/

def poolCreate (pool : List Char) : ParsedEscrowEvent := sampleEvent '0' 'a' 1800000000 (.create {
  description := "coins"
  amountMsats := 1000000
  category := "p2p-trade"
  mintUrl := "https://mint"
  platformFeeBps := 0
  platformFeePubkey := hexKey 'd'
  expirySeconds := 3600
  communityArbiters := .arr ((pool.map hexKey).map .str)
  createdAt := 1800000000 })

def listsKeys (keys : List String) : JsValue → Bool
  | .arr members => members.map JsValue.text? = keys.map some
  | _ => false

theorem eq_of_listsKeys {keys : List String} {pool : JsValue} (h : listsKeys keys pool = true) :
    pool = .arr (keys.map .str) := by
  cases pool with
  | arr members =>
    rw [listsKeys, decide_eq_true_eq] at h
    congr 1
    induction members generalizing keys with
    | nil => simpa using h
    | cons v rest ih =>
      cases keys with
      | nil => cases h
      | cons k keys =>
        obtain ⟨hhead, htail⟩ := List.cons.inj h
        have hv : v = .str k := by
          cases v with
          | str t => rw [Option.some.inj hhead]
          | _ => cases hhead
        rw [hv, ih htail, List.map_cons]
  | _ => cases h

def poolRun (pool : List Char) (check : EscrowState → Bool) : Bool :=
  (liveTrade silentHost (poolCreate pool) [sampleJoin, sampleLock]).any fun s =>
    s.status = .locked && listsKeys (pool.map hexKey) s.communityArbiters
      && s.participants = ⟨some (hexKey 'b'), some (hexKey 'a'), some (hexKey 'c')⟩ && check s

theorem exists_of_poolRun {pool : List Char} {check : EscrowState → Bool}
    (h : poolRun pool check = true) : ∃ s, Reached silentHost s ∧ s.status = .locked ∧
      s.communityArbiters = .arr ((pool.map hexKey).map .str) ∧
      s.participants = ⟨some (hexKey 'b'), some (hexKey 'a'), some (hexKey 'c')⟩ ∧
      check s = true := by
  obtain ⟨s, hs, h⟩ := (Option.any_eq_true _ _).mp h
  simp only [Bool.and_eq_true, decide_eq_true_eq] at h
  obtain ⟨⟨⟨hlocked, hpool⟩, hseats⟩, hcheck⟩ := h
  exact ⟨s, liveTrade_reached silentHost hs, hlocked, eq_of_listsKeys hpool, hseats, hcheck⟩

/-- Two arbiters, one of them listed twice: both receive the share. -/
theorem repeated_pool_whole : ∃ s found, Reached silentHost s ∧ s.status = .locked ∧
    s.communityArbiters = .arr (([ 'c', 'e', 'c'].map hexKey).map .str) ∧
    arbiterShareRecipients s = .ok found ∧
    ¬CleanRecipients s ([ 'c', 'e', 'c'].map hexKey) found := by
  have hrun : poolRun [ 'c', 'e', 'c'] (fun s => match arbiterShareRecipients s with
    | .ok found => found = [hexKey 'c', hexKey 'e']
    | .error _ => false) = true := by
    decide +kernel
  obtain ⟨s, hs, hlocked, hpool, -, hfound⟩ := exists_of_poolRun hrun
  split at hfound
  · rename_i found hok
    refine ⟨s, found, hs, hlocked, hpool, hok, fun hclean => hclean.proper.2 ?_⟩
    rw [of_decide_eq_true hfound]
    simp
  · cases hfound

/-- Two arbiters, each listed once: the assigned one alone receives the share. -/
theorem recipients_clean_sample : ∃ s found, Reached silentHost s ∧ s.status = .locked ∧
    arbiterShareRecipients s = .ok found ∧
    CleanRecipients s ([ 'c', 'e'].map hexKey) found := by
  have hrun : poolRun [ 'c', 'e'] (fun _ => true) = true := by
    decide +kernel
  obtain ⟨s, hs, hlocked, hpool, hseats, -⟩ := exists_of_poolRun hrun
  obtain ⟨found, hfound, hiff⟩ := recipients_clean s ([ 'c', 'e'].map hexKey) hpool
    ⟨hexKey 'c', by simp, hexKey 'e', by simp, fun h => absurd (hexKey_injective h) (by decide)⟩
  refine ⟨s, found, hs, hlocked, hfound, hiff.mpr ⟨?_, fun hwhole => hwhole.repeated ?_⟩⟩
  · intro pk hpk
    have hkey : pk = hexKey 'c' := by
      rw [hseats] at hpk
      simpa [truthyKey_some (hexKey_ne 'c')] using hpk.symm
    rw [hkey, hseats]
    refine ⟨by simp, fun h => ?_, fun h => ?_⟩
    · exact absurd (hexKey_injective (Option.some.inj h)) (by decide)
    · exact absurd (hexKey_injective (Option.some.inj h)) (by decide)
  · exact List.Nodup.map (fun _ _ => hexKey_injective) (by decide)

end ChamaEscrow
