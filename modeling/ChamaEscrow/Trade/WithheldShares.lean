import ChamaEscrow.Js.Text
import ChamaEscrow.Trade.Outsider

/-!
# Withheld shares

A funder may hold back the two shares that are not its own until the other principal accepts the
LOCK.  `EscrowState.recipients` is whom the share under a key is encrypted to; before the release
the funder's share is the only one with a recipient (`HeldBack`), and from the release on each share
is with its role (`Distributed`).

* `withheld_shares_routed`: every reachable trade with a withheld LOCK is in one of the two, and no
  key receives two shares.
* `unpooled_release`: the arbiter's share of a LOCK that does not pool it goes to the seated arbiter
  alone, whatever backups the pool has.
-/

namespace ChamaEscrow

open Js Library

variable {host : Host} {s s' : EscrowState} {e : ParsedEscrowEvent}

/-! ### Recipients -/

/-- Whom a share is encrypted to, `Object.keys(share.encryptedFor ?? {})`. -/
def shareHolders (share : JsValue) : List String :=
  ((share.getOptional "encryptedFor").orElse (.obj [])).ownKeys

def EscrowState.recipients (s : EscrowState) (key : String) : List String :=
  ((s.lock.shares.get key).map shareHolders).getD []

def shareKey (role : Role) : String := toString (shareIndexForRole role)

theorem toText_shareIndex : JsNumber.toText 0 = "0" ∧ JsNumber.toText 1 = "1" ∧
    JsNumber.toText 2 = "2" := by
  decide +kernel

@[simp]
theorem shareKey_buyer : shareKey .buyer = "0" := toText_shareIndex.1

@[simp]
theorem shareKey_seller : shareKey .seller = "1" := toText_shareIndex.2.1

@[simp]
theorem shareKey_arbiter : shareKey .arbiter = "2" := toText_shareIndex.2.2

/-- Only the funder's share has a recipient, the funder. -/
structure HeldBack (s : EscrowState) (withheld : Withheld) : Prop where
  funder : ∃ role, role.isPrincipal = true ∧
    withheld.lockerShareIndex = shareIndexForRole role ∧
    s.participants.get role = some withheld.lockerPubkey ∧
    ∀ key, s.recipients key = if key = shareKey role then [withheld.lockerPubkey] else []

/-- Each principal's share is with that principal alone, and the arbiter's with its holders, none of
whom is a principal. -/
structure Distributed (s : EscrowState) : Prop where
  principal : ∀ role, role.isPrincipal = true → ∃ pubkey,
    s.participants.get role = some pubkey ∧ s.recipients (shareKey role) = [pubkey]
  arbiter : ∃ pubkey holders, s.participants.arbiter = some pubkey ∧
    arbiterShareHolders s pubkey = .ok holders ∧
    (s.recipients (shareKey .arbiter)).Perm holders
  apart : ∀ pubkey ∈ s.recipients (shareKey .arbiter),
    some pubkey ≠ s.participants.buyer ∧ some pubkey ≠ s.participants.seller
  others : ∀ key, (∀ role, key ≠ shareKey role) → s.recipients key = []

/-- Where the shares of a withheld LOCK are. -/
def Routed (s : EscrowState) : Prop :=
  ∀ withheld, s.lock.withheld = some withheld →
    (truthyKey withheld.releaseEventId = none → HeldBack s withheld) ∧
      ((truthyKey withheld.releaseEventId).isSome → Distributed s)

/-! ### The LOCK -/

variable {entries : List JsValue}

theorem collectShares_eq_setAll {shares filed : OrderedMap String JsValue}
    (h : collectShares entries shares = .ok filed) : ∃ pairs, filed = shares.setAll pairs ∧
      pairs.map Prod.snd = entries ∧ ∀ pair ∈ pairs, ∃ index,
        pair.2.get "shareIndex" = .ok index ∧ index.print = .ok pair.1 := by
  induction entries generalizing shares with
  | nil => exact ⟨[], (Except.ok.inj h).symm, rfl, by simp⟩
  | cons share rest ih =>
    simp only [collectShares, bind_eq_ok] at h
    obtain ⟨index, hindex, key, hkey, h⟩ := h
    obtain ⟨pairs, rfl, hmap, hkeys⟩ := ih h
    refine ⟨(key, share) :: pairs, rfl, by rw [List.map_cons, hmap], fun pair hpair => ?_⟩
    rcases List.mem_cons.mp hpair with rfl | hpair
    · exact ⟨index, hindex, hkey⟩
    · exact hkeys pair hpair

theorem withheldCommitments_entries {ownIndex : JsNumber}
    {commitments filed : OrderedMap String String}
    (h : withheldCommitments e ownIndex entries commitments = .ok filed) :
    ∀ share ∈ entries, withheldEntryError e.pubkey ownIndex share = .ok none := by
  induction entries generalizing commitments with
  | nil => simp
  | cons share rest ih =>
    simp only [withheldCommitments, bind_eq_ok, guardNone_eq_ok, js_eq_ok] at h
    obtain ⟨problem, hproblem, _, hnone, index, _, h⟩ := h
    subst hnone
    have hrest : ∃ filed', withheldCommitments e ownIndex rest filed' = .ok filed := by
      split_ifs at h
      · exact ⟨_, h⟩
      · simp only [bind_eq_ok] at h
        obtain ⟨key, -, commitment, -, h⟩ := h
        exact ⟨_, h⟩
    obtain ⟨filed', hrest⟩ := hrest
    intro other hother
    rcases List.mem_cons.mp hother with rfl | hother
    · exact hproblem
    · exact ih hrest other hother

variable {locker : String}

theorem shareHolders_of_entry {own : JsNumber} {share : JsValue}
    (h : withheldEntryError locker own share = .ok none) : shareHolders share =
      if (share.getOptional "shareIndex").strictEq (.num own) then [locker] else [] := by
  simp only [withheldEntryError, bind_eq_ok] at h
  obtain ⟨index, hindex, encrypted, hencrypted, commitment, -, h⟩ := h
  rw [shareHolders, JsValue.getOptional_of_get hindex, JsValue.getOptional_of_get hencrypted]
  by_cases hown : index.strictEq (.num own) = true
  · rw [if_pos hown, pure_eq_ok, ite_eq_right_iff] at h
    rw [if_pos hown]
    by_contra hne
    exact absurd (h (Or.inl hne)) (by simp)
  · rw [if_neg hown, pure_eq_ok, ite_eq_right_iff] at h
    rw [if_neg hown]
    by_contra hne
    exact absurd (h (Or.inl hne)) (by simp)

/-- What a LOCK that holds back shares carries: three entries that pass, one for each index. -/
structure WithheldEntries (locker : String) (role : Role) (entries : List JsValue) : Prop where
  passed : ∀ share ∈ entries, withheldEntryError locker (shareIndexForRole role) share = .ok none
  indices : (entries.map fun share => share.getOptional "shareIndex").Perm
    [.num 0, .num 1, .num 2]

variable {withheld : Withheld} {role : Role}

theorem withheldGate_entries {p : LockPayload} (hrail : lockRailGate host s e p = .ok ())
    (h : withheldGate s e p role = .ok (some withheld)) :
    ∃ entries, (p.shares.orElse (.arr [])).spread = .ok entries ∧
      withheld.lockerShareIndex = shareIndexForRole role ∧ withheld.releaseEventId = none ∧
      WithheldEntries e.pubkey role entries := by
  obtain ⟨-, honchain, -⟩ := withheldGate_eq_ok h
  unfold withheldGate at h
  split_ifs at h
  · cases h
  simp only [bind_eq_ok, guardErr_eq_ok, js_eq_ok, pure_eq_ok, Option.some.injEq] at h
  obtain ⟨-, -, entries, hentries, commitments, hpassed, -, hindices, rfl⟩ := h
  have hlength : entries.length = 3 := by
    simp only [lockRailGate, honchain, guardErr_eq_ok, Bool.not_eq_true', Bool.and_eq_false_iff,
      not_or, Bool.not_eq_false] at hrail
    have hthree := JsValue.eq_num_of_strictEq hrail.2
    rw [JsValue.length_of_spread hentries, JsValue.num.injEq] at hthree
    exact JsNumber.ofInt_inj_of_lt (by norm_num [JsNumber.maxExact]) hthree
  refine ⟨entries, JsValue.spread_orElse hentries, rfl, rfl,
    withheldCommitments_entries hpassed, ?_⟩
  have hsub : ([.num 0, .num 1, .num 2] : List JsValue) ⊆
      entries.map fun share => share.getOptional "shareIndex" := by
    simp only [Bool.not_eq_true', Bool.not_eq_false, List.all_eq_true, List.any_eq_true] at hindices
    intro v hv
    obtain ⟨index, hindex, rfl⟩ : ∃ index ∈ ([0, 1, 2] : List JsNumber), JsValue.num index = v := by
      simpa [eq_comm] using hv
    obtain ⟨share, hshare, heq⟩ := hindices index hindex
    exact List.mem_map.mpr ⟨share, hshare, JsValue.eq_num_of_strictEq heq⟩
  have hnodup : ([.num 0, .num 1, .num 2] : List JsValue).Nodup :=
    (by decide : ([0, 1, 2] : List JsNumber).Nodup).map fun _ _ h => JsValue.num.inj h
  exact ((List.subperm_of_subset hnodup hsub).perm_of_length_le (by simp [hlength])).symm

theorem WithheldEntries.index
    (h : WithheldEntries locker role entries) {share : JsValue} (hshare : share ∈ entries) :
    ∃ n ∈ ([0, 1, 2] : List JsNumber), share.getOptional "shareIndex" = .num n := by
  have hmem : share.getOptional "shareIndex" ∈ ([0, 1, 2] : List JsNumber).map JsValue.num :=
    h.indices.mem_iff.mp (List.mem_map.mpr ⟨share, hshare, rfl⟩)
  obtain ⟨n, hn, heq⟩ := List.mem_map.mp hmem
  exact ⟨n, hn, heq.symm⟩

theorem filed_keys (h : WithheldEntries locker role entries) {pairs : List (String × JsValue)}
    (hpairs : pairs.map Prod.snd = entries) (hkeys : ∀ pair ∈ pairs, ∃ index,
      pair.2.get "shareIndex" = .ok index ∧ index.print = .ok pair.1) :
    (pairs.map Prod.fst).Perm ["0", "1", "2"] := by
  have htext : pairs.map Prod.fst =
      (entries.map fun share => share.getOptional "shareIndex").map fun index =>
        (index.number?.map JsNumber.toText).getD "" := by
    rw [← hpairs, List.map_map, List.map_map]
    refine List.map_congr_left fun pair hpair => ?_
    obtain ⟨index, hindex, hprint⟩ := hkeys pair hpair
    obtain ⟨n, -, hn⟩ := h.index (hpairs ▸ List.mem_map_of_mem hpair : pair.2 ∈ entries)
    obtain rfl : index = .num n := (JsValue.getOptional_of_get hindex).symm.trans hn
    rw [JsValue.print, Except.ok.injEq] at hprint
    dsimp only [Function.comp]
    rw [hn, ← hprint]
    rfl
  rw [htext]
  have := h.indices.map fun index : JsValue => (index.number?.map JsNumber.toText).getD ""
  refine this.trans (List.Perm.of_eq ?_)
  obtain ⟨hbuyer, hseller, harbiter⟩ := toText_shareIndex
  simp [JsValue.number?, hbuyer, hseller, harbiter]

theorem strictEq_iff_shareKey {n : JsNumber} (hn : n ∈ ([0, 1, 2] : List JsNumber)) (role : Role) :
    (JsValue.num n).strictEq (.num (shareIndexForRole role)) = true ↔ n.toText = shareKey role := by
  simp only [List.mem_cons, List.not_mem_nil, or_false] at hn
  obtain ⟨hbuyer, hseller, harbiter⟩ := toText_shareIndex
  rcases hn with rfl | rfl | rfl <;> cases role <;> simp [hbuyer, hseller, harbiter] <;> decide

theorem heldBack_of_lock {p : LockPayload} {shares : OrderedMap String JsValue}
    (hlocker : lockerGate s e p = .ok role) (hseats : LockSeats s e p)
    (hrail : lockRailGate host s e p = .ok ()) (h : withheldGate s e p role = .ok (some withheld))
    (hspread : (p.shares.orElse (.arr [])).spread = .ok entries)
    (hfiled : collectShares entries .empty = .ok shares) (hshares : s'.lock.shares = shares)
    (hparticipants : s'.participants =
      { s.participants with buyer := some p.buyerPubkey, arbiter := some p.arbiterPubkey }) :
    HeldBack s' withheld := by
  obtain ⟨hauthor, -, hprincipal⟩ := withheldGate_eq_ok h
  obtain ⟨entries', hspread', hindex, -, hentries⟩ := withheldGate_entries hrail h
  obtain rfl : entries = entries' := Except.ok.inj (hspread.symm.trans hspread')
  obtain ⟨pairs, rfl, hpairs, hkeys⟩ := collectShares_eq_setAll hfiled
  have hperm := filed_keys hentries hpairs hkeys
  have hnodup : (pairs.map Prod.fst).Nodup := hperm.nodup_iff.mpr (by decide)
  have hseat := withheldGate_seat hlocker hseats h
  rw [← hparticipants] at hseat
  refine ⟨role, hprincipal, hindex, hseat, fun key => ?_⟩
  rw [EscrowState.recipients, hshares, hauthor]
  by_cases hkey : key ∈ pairs.map Prod.fst
  · obtain ⟨⟨_, share⟩, hpair, rfl⟩ := List.mem_map.mp hkey
    rw [OrderedMap.get_setAll_of_mem _ hnodup hpair, Option.map_some, Option.getD_some]
    obtain ⟨index, hget, hprint⟩ := hkeys _ hpair
    have hmem : share ∈ entries := hpairs ▸ List.mem_map_of_mem hpair
    obtain ⟨n, hn, heq⟩ := hentries.index hmem
    obtain rfl : index = .num n := (JsValue.getOptional_of_get hget).symm.trans heq
    rw [JsValue.print, Except.ok.injEq] at hprint
    rw [shareHolders_of_entry (hentries.passed share hmem), heq, ← hprint]
    exact if_congr (strictEq_iff_shareKey hn role) rfl rfl
  · rw [OrderedMap.get_setAll_of_notMem _ hkey, OrderedMap.get_empty, if_neg]
    · rfl
    · rintro rfl
      refine hkey (hperm.mem_iff.mpr ?_)
      cases role <;> simp

/-! ### The release -/

theorem index_of_shareKey {n : JsNumber} (h : toString n = shareKey role) :
    n = shareIndexForRole role := by
  cases role with
  | buyer => exact JsNumber.toText_eq_digit (d := 0) (by norm_num) (h.trans shareKey_buyer)
  | seller => exact JsNumber.toText_eq_digit (d := 1) (by norm_num) (h.trans shareKey_seller)
  | arbiter => exact JsNumber.toText_eq_digit (d := 2) (by norm_num) (h.trans shareKey_arbiter)

def withheldKeys (role : Role) : List String :=
  (Role.all.filter fun other => other ≠ role).map shareKey

theorem mem_withheldKeys {role funder : Role} :
    shareKey role ∈ withheldKeys funder ↔ role ≠ funder := by
  cases role <;> cases funder <;> simp [withheldKeys, Role.all]

theorem withheldKeys_nodup (funder : Role) : (withheldKeys funder).Nodup := by
  cases funder <;> simp [withheldKeys, Role.all]

variable {released : List LockShareEntry}

theorem releasesWithheld_keys (hindex : withheld.lockerShareIndex = shareIndexForRole role)
    (h : releasesWithheld withheld released = true) :
    (released.map fun share => toString share.shareIndex).Perm (withheldKeys role) := by
  rw [releasesWithheld, decide_eq_true_eq, hindex] at h
  have hexpected : (([0, 1, 2] : List JsNumber).filter fun index =>
      !index.strictEq (shareIndexForRole role)).map toString = withheldKeys role := by
    cases role <;> rfl
  rw [hexpected, List.map_map] at h
  have hcommas (index : JsNumber) : ',' ∉ (toString index).toList :=
    JsNumber.IsSeparator.notMem_toText (by decide) index
  have hsorted := List.perm_insertionSort (fun s t => textLe s t = true)
    (released.map (toString ∘ LockShareEntry.shareIndex))
  have heq := JsNumber.intercalate_comma_inj (fun t ht => ?_) (fun t ht => ?_) ?_ ?_ h
  · exact (hsorted.symm.trans (List.Perm.of_eq heq) :)
  · obtain ⟨share, -, rfl⟩ := List.mem_map.mp (hsorted.mem_iff.mp ht)
    exact hcommas share.shareIndex
  · obtain ⟨other, -, rfl⟩ := List.mem_map.mp ht
    exact hcommas (shareIndexForRole other)
  · intro hnil
    rw [hnil] at h
    revert h
    cases role <;> simp [withheldKeys, Role.all, String.intercalate] <;> decide
  · cases role <;> simp [withheldKeys, Role.all]

theorem releasedSharesError_forall (h : releasedSharesError s released = .ok none) :
    ∀ share ∈ released, releasedShareError s share = .ok none := by
  induction released with
  | nil => simp
  | cons share rest ih =>
    rw [releasedSharesError, bind_eq_ok] at h
    obtain ⟨problem, hproblem, h⟩ := h
    cases problem with
    | some problem => cases h
    | none =>
      intro other hother
      rcases List.mem_cons.mp hother with rfl | hother
      · exact hproblem
      · exact ih h other hother

theorem recipients_of_release (hshares : s'.lock.shares = storeReleased s.lock.shares released)
    (hnodup : (released.map fun share => toString share.shareIndex).Nodup) :
    (∀ share ∈ released, s'.recipients (toString share.shareIndex) =
      share.encryptedFor.map Prod.fst) ∧
    ∀ key ∉ released.map fun share => toString share.shareIndex,
      s'.recipients key = s.recipients key := by
  have hall : storeReleased s.lock.shares released = s.lock.shares.setAll
      (released.map fun share => (toString share.shareIndex, releasedShare share)) := by
    rw [storeReleased, OrderedMap.setAll, List.foldl_map]
  have hkeys : (released.map fun share => (toString share.shareIndex, releasedShare share)).map
      Prod.fst = released.map fun share => toString share.shareIndex := by
    rw [List.map_map]
    rfl
  constructor
  · intro share hshare
    have hget := OrderedMap.get_setAll_of_mem s.lock.shares (hkeys ▸ hnodup)
      (List.mem_map.mpr ⟨share, hshare, rfl⟩)
    rw [EscrowState.recipients, hshares, hall, hget]
    simp [shareHolders, releasedShare, JsValue.getOptional, JsValue.member, JsValue.field,
      JsValue.orElse, JsValue.ownKeys, List.lookup_cons, Function.comp_def]
  · intro key hkey
    rw [EscrowState.recipients, hshares, hall, OrderedMap.get_setAll_of_notMem _ (hkeys ▸ hkey)]
    rfl

/-! ### The holders of the arbiter's share -/

theorem filterByKey_false {keys : List String} {pool : List JsValue} {kept : List String}
    (h : filterByKey false keys pool = .ok kept) : ∀ pk ∈ kept, toLowerCase pk ∉ keys := by
  induction pool generalizing kept with
  | nil =>
    obtain rfl := Except.ok.inj h
    simp
  | cons v rest ih =>
    rw [filterByKey, bind_eq_ok] at h
    obtain ⟨key, hkey, h⟩ := h
    rw [bind_eq_ok] at h
    obtain ⟨kept', hkept, h⟩ := h
    simp only [pure_eq_ok, Bool.false_eq_true, eq_iff_iff, iff_false] at h
    split_ifs at h with hout
    · exact h ▸ ih hkept
    · subst h
      intro pk hpk
      rcases List.mem_cons.mp hpk with rfl | hpk
      · cases v with
        | str text =>
          obtain rfl := Except.ok.inj hkey
          simpa [JsValue.text?] using hout
        | _ => cases hkey
      · exact ih hkept pk hpk

theorem toLowerCase_ne {pk : String} (h : pk ≠ "") : toLowerCase pk ≠ "" := by
  intro hlower
  refine h (String.toList_inj.mp ?_)
  have := congrArg String.toList hlower
  simpa [toLowerCase] using this

variable {principals : List (Option String)}

/-- A backup is none of the keys chosen before. -/
theorem pickArbiterFromPool_fresh {pool : JsValue} {escrowId : String}
    {order : List String} {next : Option String} {pk : String}
    (h : pickArbiterFromPool pool escrowId (principals ++ order.map some) = .ok next)
    (hpk : truthyKey next = some pk) : pk ∉ order := by
  rw [pickArbiterFromPool, bind_eq_ok] at h
  obtain ⟨keys, -, h⟩ := h
  rw [bind_eq_ok] at h
  obtain ⟨candidates, hcandidates, h⟩ := h
  obtain ⟨hnext, hne⟩ := truthyKey_eq_some hpk
  rw [pure_eq_ok, hnext, pickCandidate] at h
  have hlower := filterByKey_false hcandidates pk (List.mem_of_getElem? h)
  intro horder
  refine hlower (List.mem_filterMap.mpr ⟨some pk, ?_, truthyKey_some (toLowerCase_ne hne)⟩)
  exact List.mem_append_right _ (List.mem_map_of_mem horder)

theorem appendBackups_nodup {pool : List JsValue} {escrowId : String}
    {fuel : ℕ} {order found : List String}
    (h : appendBackups pool escrowId principals fuel order = .ok found) (horder : order.Nodup) :
    found.Nodup := by
  induction fuel generalizing order with
  | zero => exact Except.ok.inj h ▸ horder
  | succ fuel ih =>
    rw [appendBackups] at h
    split_ifs at h
    · exact Except.ok.inj h ▸ horder
    · rw [bind_eq_ok] at h
      obtain ⟨next, hnext, h⟩ := h
      split at h
      · exact pure_eq_ok.mp h ▸ horder
      · rename_i pk hpk
        refine ih h (List.nodup_append.mpr ⟨horder, List.nodup_singleton pk, ?_⟩)
        rintro other hother _ hpk' rfl
        rw [List.mem_singleton] at hpk'
        exact pickArbiterFromPool_fresh hnext hpk (hpk' ▸ hother)

theorem arbiterShareHolders_nodup {arbiter : String} {holders : List String}
    (h : arbiterShareHolders s arbiter = .ok holders) : holders.Nodup := by
  unfold arbiterShareHolders at h
  split_ifs at h
  · rw [arbiterShareRecipientsFor, bind_eq_ok] at h
    obtain ⟨order, horder, h⟩ := h
    rw [bind_eq_ok] at h
    obtain ⟨members, -, h⟩ := h
    rw [arbiterPriorityOrderFor, bind_eq_ok] at horder
    obtain ⟨_, -, horder⟩ := horder
    rw [← pure_eq_ok.mp h]
    exact (appendBackups_nodup horder (by cases truthyKey (some arbiter) <;> simp)).sublist
        (List.take_sublist _ _)
  · rw [← Except.ok.inj h]
    exact List.nodup_singleton arbiter

theorem arbiterShareHolders_congr (hcore : s'.core = s.core) (hs : Clonable s) (arbiter : String) :
    arbiterShareHolders s' arbiter = arbiterShareHolders s arbiter := by
  have hid : s'.id = s.id := congrArg (fun c => c.terms.id) hcore
  have hpooled : s'.lock.arbiterPoolShare = s.lock.arbiterPoolShare :=
    congrArg CustodyCore.arbiterPoolShare hcore
  have hbuyer : s'.participants.buyer = s.participants.buyer := congrArg CustodyCore.buyer hcore
  have hseller : s'.participants.seller = s.participants.seller := congrArg CustodyCore.seller hcore
  have hpool : s'.communityArbiters.spread = s.communityArbiters.spread :=
    congrArg CustodyCore.pool hcore
  obtain ⟨keys, hkeys⟩ := hs.1
  have hspread := JsValue.spread_orElse (w := .arr []) hkeys
  have hspread' := JsValue.spread_orElse (w := .arr []) (hpool.trans hkeys)
  simp only [arbiterShareHolders, arbiterShareRecipientsFor, arbiterPriorityOrderFor, hid, hpooled,
    hbuyer, hseller, hspread, hspread']

/-! ### Routes -/

variable {share : LockShareEntry}

theorem principal_of_release
    (hrole : role.isPrincipal = true) (hindex : share.shareIndex = shareIndexForRole role)
    (h : releasedShareError s share = .ok none) : ∃ pubkey,
      s.participants.get role = some pubkey ∧ share.encryptedFor.map Prod.fst = [pubkey] := by
  have hnot : ¬ share.shareIndex.strictEq 2 = true := by
    rw [hindex]
    cases role with
    | buyer => decide
    | seller => decide
    | arbiter => cases hrole
  have hholder : (if share.shareIndex.strictEq 0 then s.participants.buyer
      else s.participants.seller) = s.participants.get role := by
    rw [hindex]
    cases role with
    | buyer => exact if_pos (by decide)
    | seller => exact if_neg (by decide)
    | arbiter => cases hrole
  rw [releasedShareError, if_neg hnot] at h
  dsimp only at h
  rw [hholder, pure_eq_ok] at h
  split at h
  · rename_i holder hseat
    split_ifs at h with hrecipients
    exact ⟨holder, (truthyKey_eq_some hseat).1, hrecipients⟩
  · cases h

theorem arbiter_of_release (hindex : share.shareIndex = 2)
    (h : releasedShareError s share = .ok none) : (∃ pubkey holders,
      s.participants.arbiter = some pubkey ∧ arbiterShareHolders s pubkey = .ok holders ∧
        (share.encryptedFor.map Prod.fst).Perm holders) ∧
    ∀ pubkey ∈ share.encryptedFor.map Prod.fst,
      some pubkey ≠ s.participants.buyer ∧ some pubkey ≠ s.participants.seller := by
  rw [releasedShareError, if_pos (by rw [hindex]; decide)] at h
  dsimp only at h
  split at h
  · cases h
  · rename_i arbiter hseat
    rw [bind_eq_ok] at h
    obtain ⟨holders, hholders, h⟩ := h
    rw [pure_eq_ok] at h
    split_ifs at h with hproblem
    simp only [not_or, ne_eq, not_not, Bool.not_eq_true', Bool.not_eq_false, List.all_eq_true,
      decide_eq_true_eq, Bool.not_eq_true, List.any_eq_false, Bool.or_eq_false_iff,
      decide_eq_false_iff_not] at hproblem
    obtain ⟨hlength, hall, hapart⟩ := hproblem
    refine ⟨⟨arbiter, holders, (truthyKey_eq_some hseat).1, hholders, ?_⟩, hapart⟩
    exact ((List.subperm_of_subset (arbiterShareHolders_nodup hholders) hall).perm_of_length_le
      hlength.le).symm

theorem distributed_of_release
    (hs : HeldBack s withheld) (hcomplete : releasesWithheld withheld released = true)
    (hrouted : releasedSharesError s released = .ok none)
    (hshares : s'.lock.shares = storeReleased s.lock.shares released)
    (hseats : s'.participants = s.participants)
    (hholders : ∀ arbiter, arbiterShareHolders s' arbiter = arbiterShareHolders s arbiter) :
    Distributed s' := by
  obtain ⟨funder, hprincipal, hindex, hseat, hheld⟩ := hs
  have hkeys := releasesWithheld_keys hindex hcomplete
  have hnodup := withheldKeys_nodup funder
  obtain ⟨hreleased, hkept⟩ := recipients_of_release hshares (hkeys.nodup_iff.mpr hnodup)
  have hproblems := releasedSharesError_forall hrouted
  -- A role other than the funder finds its share among the released ones.
  have hfound (role : Role) (hrole : role ≠ funder) : ∃ share ∈ released,
      share.shareIndex = shareIndexForRole role ∧
        s'.recipients (shareKey role) = share.encryptedFor.map Prod.fst := by
    obtain ⟨share, hshare, hkey⟩ := List.mem_map.mp (hkeys.mem_iff.mpr (mem_withheldKeys.mpr hrole))
    exact ⟨share, hshare, index_of_shareKey hkey, hkey ▸ hreleased share hshare⟩
  have harbiter : Role.arbiter ≠ funder := by
    rintro rfl
    cases hprincipal
  obtain ⟨share, hshare, hnumber, hrecipients⟩ := hfound .arbiter harbiter
  obtain ⟨⟨arbiter, holders, hseated, hok, hperm⟩, hapart⟩ :=
    arbiter_of_release hnumber (hproblems share hshare)
  refine ⟨fun role hrole => ?_, ⟨arbiter, holders, hseats ▸ hseated, (hholders arbiter).trans hok,
    hrecipients ▸ hperm⟩, hseats.symm ▸ hrecipients ▸ hapart, fun key hkey => ?_⟩
  · by_cases hfunder : role = funder
    · subst hfunder
      refine ⟨withheld.lockerPubkey, hseats ▸ hseat, ?_⟩
      rw [hkept _ (fun h => mem_withheldKeys.mp (hkeys.mem_iff.mp h) rfl), hheld, if_pos rfl]
    · obtain ⟨share, hshare, hnumber, hrecipients⟩ := hfound role hfunder
      obtain ⟨pubkey, hpubkey, hone⟩ :=
        principal_of_release hrole hnumber (hproblems share hshare)
      exact ⟨pubkey, hseats ▸ hpubkey, hrecipients.trans hone⟩
  · rw [hkept key, hheld, if_neg (hkey funder)]
    intro hin
    obtain ⟨role, -, rfl⟩ := List.mem_map.mp (hkeys.mem_iff.mp hin)
    exact hkey role rfl

/-! ### Runs -/

theorem recipients_congr (hshares : s'.lock.shares = s.lock.shares) (key : String) :
    s'.recipients key = s.recipients key := by
  rw [EscrowState.recipients, hshares]
  rfl

theorem HeldBack.congr (h : HeldBack s withheld)
    (hseats : s'.participants = s.participants) (hshares : s'.lock.shares = s.lock.shares) :
    HeldBack s' withheld := by
  obtain ⟨role, hprincipal, hindex, hseat, hheld⟩ := h
  exact ⟨role, hprincipal, hindex, hseats ▸ hseat, fun key =>
    (recipients_congr hshares key).trans (hheld key)⟩

theorem Distributed.congr (h : Distributed s) (hs : Clonable s) (hcore : s'.core = s.core)
    (hseats : s'.participants = s.participants) (hshares : s'.lock.shares = s.lock.shares) :
    Distributed s' := by
  have hkept := recipients_congr hshares
  constructor
  · intro role hrole
    obtain ⟨pubkey, hseat, hone⟩ := h.principal role hrole
    exact ⟨pubkey, hseats ▸ hseat, (hkept _).trans hone⟩
  · obtain ⟨arbiter, holders, hseat, hholders, hperm⟩ := h.arbiter
    exact ⟨arbiter, holders, hseats ▸ hseat,
      (arbiterShareHolders_congr hcore hs arbiter).trans hholders, hkept _ ▸ hperm⟩
  · rw [hkept, hseats]
    exact h.apart
  · intro key hkey
    exact (hkept key).trans (h.others key hkey)

theorem Routed.congr (h : Routed s) (hs : Clonable s) (hcore : s'.core = s.core)
    (hseats : s'.participants = s.participants) (hshares : s'.lock.shares = s.lock.shares)
    (hwithheld : s'.lock.withheld = s.lock.withheld) : Routed s' := by
  intro withheld hheld
  obtain ⟨hbefore, hafter⟩ := h withheld (hwithheld ▸ hheld)
  exact ⟨fun hnone => (hbefore hnone).congr hseats hshares,
    fun hsome => (hafter hsome).congr hs hcore hseats hshares⟩

theorem Handled.routed_of_release (h : Handled host s e s') (hs : Clonable s) (hrouted : Routed s)
    {p : LockStepPayload} (hp : e.payload = .lockStep p) (hstep : p.step = .release) :
    Routed s' := by
  cases h
  case lockAccepted q lock next payload step _ _ _ _ _ =>
    obtain rfl : p = q := by simpa [hp] using payload
    rw [hstep] at step
    cases step
  case sharesReleased q lock withheld next payload _ _ _ held _ fresh complete routed clone =>
    obtain rfl : p = q := by simpa [hp] using payload
    have hcore : next.core = s.core := clone.keepsCustody.core
    intro after hafter
    obtain rfl := Option.some.inj hafter
    refine ⟨fun hnone => ?_, fun _ => ?_⟩
    · dsimp only at hnone
      rw [truthyKey_some (k := e.id) e.raw.id_ne] at hnone
      cases hnone
    · refine distributed_of_release ((hrouted withheld held).1 fresh) complete routed ?_
        clone.participants fun arbiter => arbiterShareHolders_congr hcore hs arbiter
      dsimp only
      rw [clone.lock]
  all_goals simp_all

theorem Stepped.routed (h : Stepped host s e s') (hfunded : Funded s) (hs : Clonable s)
    (hrouted : Routed s) : Routed s' := by
  have hseats := hfunded.seats.step hfunded.not_open h
  cases h.pastOpen hfunded.not_open with
  | keeps hkeeps => exact hrouted.congr hs hkeeps.core hseats hkeeps.shares hkeeps.withheld
  | plan hplan => exact hrouted.congr hs hplan.core hseats hplan.shares hplan.withheld
  | release hrelease =>
    obtain ⟨p, withheld, hp, hstep, -⟩ := hrelease.step
    cases h with
    | echoed => exact hrouted
    | premium payload => simp [hp] at payload
    | settlement payload => simp [hp] at payload
    | expired kind => exact absurd (by rw [ParsedEscrowEvent.kind, hp]; rfl) kind.2
    | handled _ _ _ _ handled => exact handled.routed_of_release hs hrouted hp hstep
    | lateHandled _ _ expires handled =>
      have hkeeps := expires.keepsCustody
      refine handled.routed_of_release (hs.congr hkeeps.core) (hrouted.congr hs hkeeps.core ?_
        hkeeps.shares hkeeps.withheld) hp hstep
      obtain ⟨copy, clone, rfl⟩ := expires.eq
      exact clone.participants

theorem Handled.routed_of_lock (h : Handled host s e s') (hkind : e.kind = .lock)
    (hlock : s.lock = {}) : Routed s' := by
  cases h
  case locked p next role held amount entries shares payload _ _ _ locker seats rail withhold _ _
      spread filed clone =>
    intro withheld hwithheld
    have hempty : next.lock = {} := clone.lock.trans hlock
    have hheld : held = some withheld := by
      simpa [lockedState, lockDetails, hempty] using hwithheld
    subst hheld
    rw [hempty] at filed
    obtain ⟨-, -, -, hfresh, -⟩ := withheldGate_entries rail withhold
    refine ⟨fun _ => ?_, fun hsome => ?_⟩
    · refine heldBack_of_lock locker (lockSeatsGate_eq_ok seats) rail withhold spread filed rfl ?_
      dsimp only [lockedState]
      rw [clone.participants]
    · rw [hfresh] at hsome
      cases hsome
  all_goals simp_all [ParsedEscrowEvent.kind, EscrowPayload.kind]

theorem Reached.routed (h : Reached host s) : Routed s := by
  refine Reached.of_lock (fun s hlock withheld hwithheld => ?_)
    (fun h hkind hlock => h.routed_of_lock hkind hlock) (fun hstep hreached hlocked hs =>
      hstep.routed (hreached.funded hlocked) (hreached.clonable hlocked) hs) h
  rw [hlock] at hwithheld
  cases hwithheld

/-! ### Secrecy -/

variable {key key' pubkey : String}

theorem HeldBack.apart (h : HeldBack s withheld)
    (hkey : pubkey ∈ s.recipients key) (hkey' : pubkey ∈ s.recipients key') : key = key' := by
  obtain ⟨role, -, -, -, hheld⟩ := h
  have only {key : String} (hmem : pubkey ∈ s.recipients key) : key = shareKey role := by
    by_contra hne
    rw [hheld, if_neg hne] at hmem
    cases hmem
  exact (only hkey).trans (only hkey').symm

theorem Distributed.apart_keys (h : Distributed s) (hseats : SeatsFilled s)
    (hkey : pubkey ∈ s.recipients key) (hkey' : pubkey ∈ s.recipients key') : key = key' := by
  have role_of {key : String} (hmem : pubkey ∈ s.recipients key) : ∃ role, key = shareKey role := by
    by_contra hnone
    rw [h.others key (fun role hrole => hnone ⟨role, hrole⟩)] at hmem
    cases hmem
  have seat_of {r : Role} (hrole : r.isPrincipal = true)
      (hmem : pubkey ∈ s.recipients (shareKey r)) : s.participants.get r = some pubkey := by
    obtain ⟨holder, hseat, hone⟩ := h.principal r hrole
    rw [hone, List.mem_singleton] at hmem
    rw [hseat, hmem]
  obtain ⟨buyer, seller, arbiter, hparticipants, hne, -⟩ := hseats
  have hdistinct : s.participants.buyer ≠ s.participants.seller := by
    rw [hparticipants]
    simpa using hne
  obtain ⟨role, rfl⟩ := role_of hkey
  obtain ⟨role', rfl⟩ := role_of hkey'
  cases role with
  | buyer =>
    have hbuyer := seat_of (r := .buyer) rfl hkey
    cases role' with
    | buyer => rfl
    | seller => exact absurd (hbuyer.trans (seat_of (r := .seller) rfl hkey').symm) hdistinct
    | arbiter => exact absurd hbuyer.symm (h.apart pubkey hkey').1
  | seller =>
    have hseller := seat_of (r := .seller) rfl hkey
    cases role' with
    | buyer => exact absurd ((seat_of (r := .buyer) rfl hkey').trans hseller.symm) hdistinct
    | seller => rfl
    | arbiter => exact absurd hseller.symm (h.apart pubkey hkey').2
  | arbiter =>
    cases role' with
    | buyer => exact absurd (seat_of (r := .buyer) rfl hkey').symm (h.apart pubkey hkey).1
    | seller => exact absurd (seat_of (r := .seller) rfl hkey').symm (h.apart pubkey hkey).2
    | arbiter => rfl

/-- Until the release the funder's share is the only one of a withheld LOCK that is encrypted to
anyone, and to the funder alone; from the release on each principal has its own share and the
arbiter's is with the seated arbiter, and the backups if the LOCK pools it.  No key ever receives
two shares. -/
theorem withheld_shares_routed (host : Host) (s : EscrowState) (hs : Reached host s)
    (withheld : Withheld) (hheld : s.lock.withheld = some withheld) :
    (truthyKey withheld.releaseEventId = none → HeldBack s withheld) ∧
    ((truthyKey withheld.releaseEventId).isSome → Distributed s) ∧
    ∀ key key' pubkey, pubkey ∈ s.recipients key → pubkey ∈ s.recipients key' → key = key' := by
  obtain ⟨hbefore, hafter⟩ := hs.routed withheld hheld
  refine ⟨hbefore, hafter, fun key key' pubkey hkey hkey' => ?_⟩
  by_cases hreleased : (truthyKey withheld.releaseEventId).isSome
  · have hlock : s.hasLock = true := by
      by_contra hnot
      rw [hs.lock_of_unfunded (by simpa using hnot)] at hheld
      cases hheld
    exact (hafter hreleased).apart_keys (hs.funded hlock).seats hkey hkey'
  · exact (hbefore (Option.not_isSome_iff_eq_none.mp hreleased)).apart hkey hkey'

def samplePoolCreate : ParsedEscrowEvent := sampleEvent '0' 'a' 1800000000 (.create {
  description := "coins"
  amountMsats := 1000000
  category := "p2p-trade"
  mintUrl := "https://mint"
  platformFeeBps := 0
  platformFeePubkey := hexKey 'd'
  expirySeconds := 3600
  communityArbiters := .arr [.str (hexKey 'c'), .str (hexKey 'e'), .str (hexKey 'f')]
  createdAt := 1800000000 })

def sampleWithheldLock : ParsedEscrowEvent := sampleEvent '2' 'a' 1800000020 (.lock {
  notesHash := .str "notes"
  shares := .arr [.obj [("shareIndex", .num 0), ("commitment", .str "buyer's")],
    .obj [("shareIndex", .num 1), ("encryptedFor", .obj [(hexKey 'a', .str "cipher")])],
    .obj [("shareIndex", .num 2), ("commitment", .str "arbiter's")]]
  sharePolicy := .str "holder-only-v1"
  withheldShares := some true
  sellerReceivesMsats := 1000000
  arbiterFeeMsats := 0
  buyerPubkey := hexKey 'b'
  arbiterPubkey := hexKey 'c'
  lockedAt := 1800000020 })

def sampleAccept : ParsedEscrowEvent :=
  { sampleEvent '3' 'b' 1800000030 (.lockStep { step := .accept, lockEventId := hexKey '2' }) with
    prevEventId := some (hexKey '2') }

def sampleShareRelease : ParsedEscrowEvent :=
  { sampleEvent '4' 'a' 1800000040 (.lockStep {
      step := .release
      lockEventId := hexKey '2'
      shares := [⟨0, [(hexKey 'b', "cipher")]⟩, ⟨2, [(hexKey 'c', "cipher")]⟩] }) with
    prevEventId := some (hexKey '3') }

/-- The released trade, with a pool of three and a LOCK that does not pool the arbiter's share. -/
def releasedEvents : List ParsedEscrowEvent :=
  [sampleJoin, sampleWithheldLock, sampleAccept, sampleShareRelease]

/-- Without pooling the arbiter's share goes to one key, though the pool has a backup for it. -/
theorem unpooled_release : ∃ s withheld holders, Reached silentHost s ∧
    s.lock.withheld = some withheld ∧ (truthyKey withheld.releaseEventId).isSome ∧
    arbiterShareRecipientsFor s.id (s.communityArbiters.orElse (.arr [])) s.participants.buyer
      s.participants.seller s.participants.arbiter = .ok holders ∧
    ¬ (s.recipients (shareKey .arbiter)).Perm holders := by
  have hrun : (liveTrade silentHost samplePoolCreate releasedEvents).any (fun s =>
      (s.lock.withheld.any fun withheld => (truthyKey withheld.releaseEventId).isSome) &&
        match arbiterShareRecipientsFor s.id (s.communityArbiters.orElse (.arr []))
          s.participants.buyer s.participants.seller s.participants.arbiter with
        | .ok holders => (s.recipients (shareKey .arbiter)).length ≠ holders.length
        | .error _ => false) = true := by
    decide +kernel
  obtain ⟨s, hs, h⟩ := (Option.any_eq_true _ _).mp hrun
  rw [Bool.and_eq_true] at h
  obtain ⟨hreleased, h⟩ := h
  obtain ⟨withheld, hheld, hreleased⟩ := (Option.any_eq_true _ _).mp hreleased
  split at h
  · rename_i holders hholders
    rw [decide_eq_true_eq] at h
    exact ⟨s, withheld, holders, liveTrade_reached silentHost hs, hheld, hreleased, hholders,
      fun hperm => h hperm.length_eq⟩
  · cases h

/-- The released sample trade has each share with its role. -/
theorem withheld_shares_routed_sample : ∃ s withheld, Reached silentHost s ∧
    s.lock.withheld = some withheld ∧ Distributed s ∧
    ∀ key key' pubkey, pubkey ∈ s.recipients key → pubkey ∈ s.recipients key' → key = key' := by
  have hrun : (liveTrade silentHost samplePoolCreate releasedEvents).any (fun s =>
      s.lock.withheld.any fun withheld => (truthyKey withheld.releaseEventId).isSome) = true := by
    decide +kernel
  obtain ⟨s, hs, h⟩ := (Option.any_eq_true _ _).mp hrun
  obtain ⟨withheld, hheld, hreleased⟩ := (Option.any_eq_true _ _).mp h
  have hreached := liveTrade_reached silentHost hs
  obtain ⟨-, hafter, hapart⟩ := withheld_shares_routed silentHost s hreached withheld hheld
  exact ⟨s, withheld, hreached, hheld, hafter hreleased, hapart⟩

end ChamaEscrow
