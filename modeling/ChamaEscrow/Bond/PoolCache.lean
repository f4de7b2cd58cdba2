import ChamaEscrow.Bond.AnnouncementBuild
import ChamaEscrow.Client.Storage
import ChamaEscrow.Js.Objects
import ChamaEscrow.Library.LastOfEach

/-!
# The cache of the bonded pool

`arbiters/bonded-pool-cache.ts`: the bonds that a fetch verified, kept for each community, so that a
failed fetch falls back to recent ones.  A write is the whole current set of every arbiter it names,
and says nothing of the others; a read leaves out what was verified too long ago.

The main result is `bonded_pool_generations`: what a read serves of an arbiter is the latest write
that named the arbiter, as long as the community stayed among those the cache has room for.
-/

namespace ChamaEscrow.Bond

open Js Library

/-! ### Bonds as they are cached -/

/-- How much of the announced ancestry the chain backed. -/
structure LineageProven where
  provenHops : ℕ
  claimedHops : ℕ
  deriving DecidableEq

/-- `VerifiedBond` as a cache may serve it: what an old entry lacks is absent. -/
structure CachedBond where
  signedEvent : Option NostrEvent := none
  npub : String
  community : String
  address : String
  lockUntil : JsNumber
  actualSats : ℤ
  claimedSats : ℤ
  funded : Bool
  active : Bool
  fundedAtHeight : Option ℕ := none
  fundingTxid : Option String := none
  roles : List BondRole
  lineage : Option BondLineage := none
  tenureFromHeight : Option ℕ := none
  lineageProven : Option LineageProven := none
  announcedAt : Option JsNumber := none
  ownerXonly : Option String := none

/-- A bond that survives its serialization: its numbers are finite, so that JSON has them, and its
texts are no blanks. -/
structure CachedBond.Cacheable (b : CachedBond) : Prop where
  npub : '|' ∉ b.npub.toList
  lockUntil : b.lockUntil.isFinite = true
  actualSats : 0 ≤ b.actualSats
  claimedSats : 0 ≤ b.claimedSats
  fundingTxid : b.fundingTxid ≠ some ""
  roles : b.roles ≠ []
  hops : ∀ lineage, b.lineage = some lineage → ∀ hop ∈ lineage.hops,
    hop.fromLockUntil.isFinite = true
  announcedAt : ∀ at_, b.announcedAt = some at_ → at_.isFinite = true
  ownerXonly : b.ownerXonly ≠ some ""

abbrev PoolBond := { b : CachedBond // b.Cacheable }

def PoolBond.arbiter (b : PoolBond) : String := toLowerCase b.val.npub

structure SerializedBond where
  verifiedAt : Option ℤ := none
  signedEvent : Option NostrEvent
  npub : String
  community : String
  address : String
  lockUntil : JsNumber
  actualSats : String
  claimedSats : String
  funded : Bool
  active : Bool
  fundedAtHeight : Option ℕ
  fundingTxid : Option String
  roles : Option (List BondRole)
  lineage : Option BondLineage
  tenureFromHeight : Option ℕ
  lineageProven : Option LineageProven
  announcedAt : Option JsNumber
  ownerXonly : Option String

def serializeBond (b : CachedBond) : SerializedBond where
  signedEvent := b.signedEvent
  npub := b.npub
  community := b.community
  address := b.address
  lockUntil := b.lockUntil
  actualSats := toString b.actualSats
  claimedSats := toString b.claimedSats
  funded := b.funded
  active := b.active
  fundedAtHeight := b.fundedAtHeight
  fundingTxid := b.fundingTxid.filter (· ≠ "")
  roles := if b.roles.isEmpty then none else some b.roles
  lineage := b.lineage
  tenureFromHeight := b.tenureFromHeight
  lineageProven := b.lineageProven
  announcedAt := b.announcedAt
  ownerXonly := b.ownerXonly.filter (· ≠ "")

/-- `BigInt` of a text of `serializeBond`: anything but decimal digits is taken to throw. -/
def satsOfText (text : String) : Option ℤ := if isDigits text then some (digitsValue text) else none

def deserializeBond (s : SerializedBond) : Option CachedBond := do
  guard s.lockUntil.isFinite
  let actualSats ← satsOfText s.actualSats
  let claimedSats ← satsOfText s.claimedSats
  return {
    signedEvent := s.signedEvent
    npub := s.npub
    community := s.community
    address := s.address
    lockUntil := s.lockUntil
    actualSats
    claimedSats
    funded := s.funded
    active := s.active
    -- An entry without roles is one of an arbiter: to opt out of the pool is always explicit.
    roles := (s.roles.filter fun roles => !roles.isEmpty).getD [.arbiter]
    fundedAtHeight := s.fundedAtHeight
    fundingTxid := s.fundingTxid.filter (· ≠ "")
    lineage := s.lineage
    tenureFromHeight := s.tenureFromHeight
    lineageProven := s.lineageProven
    announcedAt := s.announcedAt
    ownerXonly := s.ownerXonly.filter (· ≠ "") }

/-! ### The store -/

def bondedPoolCacheTtlMs : ℤ := 12 * 60 * 60 * 1000

def bondedPoolCacheMaxCommunities : ℕ := 50

structure CacheEntry where
  verifiedAt : ℤ
  bonds : List SerializedBond

abbrev CacheStore := OrderedMap String CacheEntry

/-- `loadCache`: what cannot be read is empty. -/
def loadCache (f : Faults) (s : Stored CacheStore) : CacheStore :=
  match s.readItem f with
  | .value store => store
  | .missing | .garbled => .empty

/-- `saveCache`: a write that fails is only reported. -/
def saveCache (f : Faults) (s : Stored CacheStore) (store : CacheStore) : Stored CacheStore :=
  (s.writeItem f (evictOldest CacheEntry.verifiedAt bondedPoolCacheMaxCommunities store)).2

/-- `store[community] = entry`: that key of an object is no property of its own. -/
def CacheStore.assign (store : CacheStore) (community : String) (entry : CacheEntry) : CacheStore :=
  if community = "__proto__" then store else store.set community entry

def cachedBondKey (npub address : String) : String := toLowerCase npub ++ "|" ++ address

/-- One call of `writeCachedCommunityBonds`. -/
structure CacheWrite where
  community : String
  bonds : List PoolBond
  nowMs : ℤ
  faults : Faults := .none

def keepOld (freshArbiters : List String) (prior : CacheEntry) (old : SerializedBond) :
    Option (String × SerializedBond) :=
  if toLowerCase old.npub ∈ freshArbiters then none
  else (deserializeBond old).map fun _ =>
    (cachedBondKey old.npub old.address,
      { old with verifiedAt := some (old.verifiedAt.getD prior.verifiedAt) })

def CacheWrite.entry (w : CacheWrite) (prior : Option CacheEntry) : CacheEntry :=
  let freshArbiters := w.bonds.map PoolBond.arbiter
  let kept := prior.elim [] fun prior => prior.bonds.filterMap (keepOld freshArbiters prior)
  let fresh := w.bonds.map fun b => (cachedBondKey b.val.npub b.val.address,
    { serializeBond b.val with verifiedAt := some w.nowMs })
  { verifiedAt := w.nowMs
    bonds := ((OrderedMap.empty.setAll kept).setAll fresh).values }

def CacheWrite.store (w : CacheWrite) (store : CacheStore) : CacheStore :=
  store.assign w.community (w.entry (store.get w.community))

/-- `writeCachedCommunityBonds`: an empty result is never written. -/
def writeCachedCommunityBonds (s : Stored CacheStore) (w : CacheWrite) : Stored CacheStore :=
  if w.community = "" || w.bonds.isEmpty then s
  else saveCache w.faults s (w.store (loadCache w.faults s))

def recentBonds (entry : CacheEntry) (nowMs : ℤ) (allowStale : Bool) :
    List SerializedBond → Option (List CachedBond)
  | [] => some []
  | s :: rest => do
    let b ← deserializeBond s
    let others ← recentBonds entry nowMs allowStale rest
    return if allowStale || nowMs - s.verifiedAt.getD entry.verifiedAt ≤ bondedPoolCacheTtlMs
      then b :: others else others

def readCachedCommunityBonds (f : Faults) (s : Stored CacheStore) (community : String) (nowMs : ℤ)
    (allowStale : Bool) : Option (List CachedBond) := do
  let entry ← (loadCache f s).get community
  let bonds ← recentBonds entry nowMs allowStale entry.bonds
  if bonds.isEmpty then none else some bonds

/-! ### What a serialized bond reads back as -/

theorem satsOfText_toString {n : ℤ} (h : 0 ≤ n) : satsOfText (toString n) = some n := by
  obtain ⟨hdigits, hvalue⟩ := digitsValue_toString h
  rw [satsOfText, if_pos hdigits, hvalue]

theorem filter_ne_blank {text : Option String} (h : text ≠ some "") :
    text.filter (· ≠ "") = text := by
  cases text with
  | none => rfl
  | some t =>
    have ht : t ≠ "" := fun heq => h (congrArg some heq)
    rw [Option.filter_some, if_pos (decide_eq_true ht)]

def storedBond (e : PoolBond × ℤ) : SerializedBond :=
  { serializeBond e.1.val with verifiedAt := some e.2 }

theorem deserialize_stored (e : PoolBond × ℤ) : deserializeBond (storedBond e) = some e.1.val := by
  obtain ⟨⟨b, h⟩, time⟩ := e
  have hactual : satsOfText (toString b.actualSats) = some b.actualSats :=
    satsOfText_toString h.actualSats
  have hclaimed : satsOfText (toString b.claimedSats) = some b.claimedSats :=
    satsOfText_toString h.claimedSats
  have hroles : b.roles.isEmpty = false := by
    rw [List.isEmpty_eq_false_iff]
    exact h.roles
  have htxid := filter_ne_blank h.fundingTxid
  have howner := filter_ne_blank h.ownerXonly
  simp only [deserializeBond, storedBond, serializeBond, h.lockUntil, hactual, hclaimed, hroles,
    htxid, howner, guard_true, Option.pure_def, Option.bind_eq_bind, Option.bind_some,
    Bool.false_eq_true, if_false, Option.filter_some, Bool.not_false, if_true, Option.getD_some]

/-! ### One entry -/

def PoolBond.key (b : PoolBond) : String := cachedBondKey b.val.npub b.val.address

def keyArbiter (key : String) : String := String.ofList (key.toList.takeWhile (· ≠ '|'))

theorem toLower_eq_bar {d : Char} (h : d.toLower = '|') : d = '|' := by
  unfold Char.toLower at h
  split_ifs at h with hupper
  · have hlow : 65 ≤ d.val.toNat := UInt32.le_iff_toNat_le.mp hupper.1
    have hhigh : d.val.toNat ≤ 90 := UInt32.le_iff_toNat_le.mp hupper.2
    have hval : (d.val + ('a'.val - 'A'.val)).toNat = 124 := congrArg Char.toNat h
    have hshift : ('a'.val - 'A'.val).toNat = 32 := by decide
    rw [UInt32.toNat_add] at hval
    omega
  · exact h

theorem keyArbiter_key (b : PoolBond) : keyArbiter b.key = b.arbiter := by
  have hplain : ∀ c ∈ b.arbiter.toList, (decide (c ≠ '|')) = true := by
    intro c hc
    rw [decide_eq_true_eq]
    rintro rfl
    rw [PoolBond.arbiter, toLowerCase, String.toList_ofList, List.mem_map] at hc
    obtain ⟨d, hd, hlower⟩ := hc
    have hbar : d = '|' := toLower_eq_bar hlower
    exact b.property.npub (hbar ▸ hd)
  have hkey : b.key.toList = b.arbiter.toList ++ '|' :: b.val.address.toList := by
    rw [PoolBond.key, cachedBondKey, String.toList_append, String.toList_append,
      List.append_assoc]
    rfl
  rw [keyArbiter, hkey, List.takeWhile_append_of_pos hplain,
    List.takeWhile_cons_of_neg (by simp), List.append_nil, String.ofList_toList]

structure CacheEntry.Holds (entry : CacheEntry) (l : List (PoolBond × ℤ)) : Prop where
  bonds : entry.bonds = l.map storedBond
  keys : (l.map fun e => e.1.key).Nodup

def Represents : Option CacheEntry → List (PoolBond × ℤ) → Prop
  | none, l => l = []
  | some entry, l => entry.Holds l

def CacheWrite.merge (w : CacheWrite) (l : List (PoolBond × ℤ)) : List (PoolBond × ℤ) :=
  l.filter (fun e => e.1.arbiter ∉ w.bonds.map PoolBond.arbiter)
    ++ (lastOfEach PoolBond.key w.bonds).map fun b => (b, w.nowMs)

theorem keepOld_stored (freshArbiters : List String) (prior : CacheEntry) (e : PoolBond × ℤ) :
    keepOld freshArbiters prior (storedBond e) =
      if e.1.arbiter ∈ freshArbiters then none else some (e.1.key, storedBond e) := by
  rw [keepOld, deserialize_stored]
  rfl

theorem kept_stored (freshArbiters : List String) (prior : CacheEntry) (l : List (PoolBond × ℤ)) :
    (l.map storedBond).filterMap (keepOld freshArbiters prior) =
      (l.filter fun e => e.1.arbiter ∉ freshArbiters).map fun e => (e.1.key, storedBond e) := by
  induction l with
  | nil => rfl
  | cons e rest ih =>
    rw [List.map_cons, List.filterMap_cons, keepOld_stored, List.filter_cons, ih]
    by_cases hnamed : e.1.arbiter ∈ freshArbiters
    · rw [if_pos hnamed, if_neg (by simpa using hnamed)]
    · rw [if_neg hnamed, if_pos (by simpa using hnamed), List.map_cons]

variable {w : CacheWrite}

variable {l : List (PoolBond × ℤ)}

theorem entry_holds {prior : Option CacheEntry}
    (h : Represents prior l) : (w.entry prior).Holds (w.merge l) := by
  have hprior : prior.elim [] (fun p =>
      p.bonds.filterMap (keepOld (w.bonds.map PoolBond.arbiter) p)) =
      (l.filter fun e => e.1.arbiter ∉ w.bonds.map PoolBond.arbiter).map fun e =>
        (e.1.key, storedBond e) := by
    cases prior with
    | none =>
      have hl : l = [] := h
      rw [hl]
      rfl
    | some p => exact (congrArg _ h.bonds).trans (kept_stored _ p l)
  have hkeys : (l.map fun e => e.1.key).Nodup := by
    cases prior with
    | none =>
      have hl : l = [] := h
      rw [hl]
      exact List.nodup_nil
    | some p => exact h.keys
  set kept := l.filter fun e => e.1.arbiter ∉ w.bonds.map PoolBond.arbiter with hkept
  have hkeptKeys : (kept.map fun e => e.1.key).Nodup :=
    hkeys.sublist (List.filter_sublist.map _)
  -- A key names its arbiter, so no key of a kept bond is written again.
  have hapart : ∀ e ∈ kept, ∀ b ∈ w.bonds, e.1.key ≠ b.key := by
    intro e he b hb heq
    have harbiter : e.1.arbiter = b.arbiter := by
      rw [← keyArbiter_key, heq, keyArbiter_key]
    have hnot := (List.mem_filter.mp he).2
    rw [decide_eq_true_eq] at hnot
    exact hnot (harbiter ▸ List.mem_map_of_mem hb)
  have hfresh : ∀ e ∈ w.bonds.map fun b => (b.key, storedBond (b, w.nowMs)),
      e.1 ∉ (kept.map fun e => (e.1.key, storedBond e)).map Prod.fst := by
    intro e he hmem
    obtain ⟨b, hb, rfl⟩ := List.mem_map.mp he
    rw [List.map_map] at hmem
    obtain ⟨old, hold, heq⟩ := List.mem_map.mp hmem
    exact hapart old hold b hb heq
  constructor
  · have hentries : ((OrderedMap.empty.setAll (kept.map fun e => (e.1.key, storedBond e))).setAll
        (w.bonds.map fun b => (b.key, storedBond (b, w.nowMs)))).entries =
        (kept.map fun e => (e.1.key, storedBond e)) ++
          (setEach [] (w.bonds.map fun b => (b.key, b))).map
            (Prod.map id fun b => storedBond (b, w.nowMs)) := by
      have hfirst := OrderedMap.entries_setAll (OrderedMap.empty : OrderedMap String SerializedBond)
        (l := kept.map fun e => (e.1.key, storedBond e)) (by
          rw [OrderedMap.empty, List.nil_append, List.map_map]
          exact hkeptKeys)
      rw [entries_setAll_eq, hfirst, map_setEach, List.map_nil, List.map_map]
      exact (congrArg (setEach · _) (List.append_nil _).symm).trans (setEach_append hfresh)
    have hbonds : (w.entry prior).bonds =
        ((OrderedMap.empty.setAll (kept.map fun e => (e.1.key, storedBond e))).setAll
          (w.bonds.map fun b => (b.key, storedBond (b, w.nowMs)))).values := by
      rw [← hprior]
      rfl
    rw [hbonds, OrderedMap.values, hentries, CacheWrite.merge, lastOfEach]
    simp only [List.map_append, List.map_map]
    rfl
  · have hlast : (((lastOfEach PoolBond.key w.bonds).map fun b => (b, w.nowMs)).map
        fun e => e.1.key) = (lastOfEach PoolBond.key w.bonds).map PoolBond.key := by
      rw [List.map_map]
      rfl
    rw [CacheWrite.merge, List.map_append, hlast, List.nodup_append]
    refine ⟨hkeptKeys, nodup_lastOfEach _ _, ?_⟩
    intro k hk k' hk'
    obtain ⟨old, hold, rfl⟩ := List.mem_map.mp hk
    obtain ⟨b, hb, rfl⟩ := List.mem_map.mp hk'
    exact hapart old hold b (mem_lastOfEach hb)

/-! ### Generations -/

def CacheWrite.Names (w : CacheWrite) (community arbiter : String) : Prop :=
  w.community = community ∧ ∃ b ∈ w.bonds, b.arbiter = arbiter

def CacheWrite.bondsOf (w : CacheWrite) (arbiter : String) : List PoolBond :=
  lastOfEach PoolBond.key (w.bonds.filter fun b => b.arbiter = arbiter)

def generation (arbiter : String) (l : List (PoolBond × ℤ)) : List (PoolBond × ℤ) :=
  l.filter fun e => e.1.arbiter = arbiter

theorem generation_merge_of_named {arbiter : String}
    (h : ∃ b ∈ w.bonds, b.arbiter = arbiter) (l : List (PoolBond × ℤ)) :
    generation arbiter (w.merge l) = (w.bondsOf arbiter).map fun b => (b, w.nowMs) := by
  have hold : (l.filter fun e => e.1.arbiter ∉ w.bonds.map PoolBond.arbiter).filter
      (fun e => e.1.arbiter = arbiter) = [] := by
    rw [List.filter_filter, List.filter_eq_nil_iff]
    intro e _
    obtain ⟨b, hb, rfl⟩ := h
    rw [Bool.and_eq_true, decide_eq_true_eq, decide_eq_true_eq]
    rintro ⟨heq, hnot⟩
    exact hnot (heq ▸ List.mem_map_of_mem hb)
  have hkeys : ∀ b : PoolBond, decide (keyArbiter b.key = arbiter) = decide (b.arbiter = arbiter) :=
    fun b => by rw [keyArbiter_key]
  have hlast : (lastOfEach PoolBond.key w.bonds).filter
      (fun b => decide (keyArbiter b.key = arbiter)) =
      lastOfEach PoolBond.key (w.bonds.filter fun b => decide (keyArbiter b.key = arbiter)) :=
    filter_lastOfEach (fun key => decide (keyArbiter key = arbiter)) w.bonds
  simp only [hkeys] at hlast
  rw [generation, CacheWrite.merge, List.filter_append, hold, List.nil_append, List.filter_map,
    CacheWrite.bondsOf, ← hlast]
  rfl

theorem generation_merge_of_not_named {arbiter : String}
    (h : ¬ ∃ b ∈ w.bonds, b.arbiter = arbiter) (l : List (PoolBond × ℤ)) :
    generation arbiter (w.merge l) = generation arbiter l := by
  have hfresh : ((lastOfEach PoolBond.key w.bonds).map fun b => (b, w.nowMs)).filter
      (fun e => e.1.arbiter = arbiter) = [] := by
    rw [List.filter_eq_nil_iff]
    intro e he heq
    obtain ⟨b, hb, rfl⟩ := List.mem_map.mp he
    exact h ⟨b, mem_lastOfEach hb, of_decide_eq_true heq⟩
  rw [generation, CacheWrite.merge, List.filter_append, hfresh, List.append_nil, List.filter_filter,
    generation]
  refine List.filter_congr fun e _ => ?_
  by_cases heq : e.1.arbiter = arbiter
  · have hnot : e.1.arbiter ∉ w.bonds.map PoolBond.arbiter := by
      intro hmem
      obtain ⟨b, hb, hbe⟩ := List.mem_map.mp hmem
      exact h ⟨b, hb, hbe.trans heq⟩
    rw [decide_eq_true hnot, Bool.and_true]
  · rw [decide_eq_false heq, Bool.false_and]

/-! ### Runs -/

/-- The writes that the stored cache goes back to.  One that is skipped or lost is not among them,
and one that could not read the cache starts it anew. -/
def landWrite (h : List CacheWrite) (w : CacheWrite) : List CacheWrite :=
  if w.community = "" || w.bonds.isEmpty || w.faults.write == some .lost then h
  else if w.faults.read then [w]
  else h ++ [w]

def landedWrites (writes : List CacheWrite) : List CacheWrite := writes.foldl landWrite []

def CacheWrite.put (store : CacheStore) (w : CacheWrite) : CacheStore :=
  evictOldest CacheEntry.verifiedAt bondedPoolCacheMaxCommunities (w.store store)

def cacheAfter (h : List CacheWrite) : CacheStore := h.foldl CacheWrite.put .empty

theorem cacheAfter_snoc (h : List CacheWrite) (w : CacheWrite) :
    cacheAfter (h ++ [w]) = w.put (cacheAfter h) := by
  unfold cacheAfter
  rw [List.foldl_append]
  rfl

variable {h : List CacheWrite}

variable {s : Stored CacheStore}

theorem load_write (hs : loadCache .none s = cacheAfter h) (w : CacheWrite) :
    loadCache .none (writeCachedCommunityBonds s w) = cacheAfter (landWrite h w) := by
  obtain ⟨community, bonds, nowMs, ⟨read, write⟩⟩ := w
  unfold writeCachedCommunityBonds landWrite
  by_cases hskip : (community = "" || bonds.isEmpty) = true
  · simp only [hskip, if_true, Bool.true_or, hs]
  · have hread : loadCache ⟨read, write⟩ s = if read then .empty else cacheAfter h := by
      rw [← hs]
      cases read <;> rfl
    simp only [hskip, Bool.false_eq_true, if_false, Bool.false_or, hread, saveCache,
      Stored.writeItem]
    cases write with
    | none =>
      cases read with
      | true => rfl
      | false => exact (cacheAfter_snoc h _).symm
    | some fault =>
      cases fault with
      | lost => exact hs
      | kept =>
        cases read with
        | true => rfl
        | false => exact (cacheAfter_snoc h _).symm

theorem load_run (writes : List CacheWrite) :
    loadCache .none (writes.foldl writeCachedCommunityBonds .missing) =
      cacheAfter (landedWrites writes) := by
  suffices hrun : ∀ (s : Stored CacheStore) (h : List CacheWrite),
      loadCache .none s = cacheAfter h →
      loadCache .none (writes.foldl writeCachedCommunityBonds s) =
        cacheAfter (writes.foldl landWrite h) from hrun .missing [] rfl
  induction writes with
  | nil => exact fun s h hs => hs
  | cons w rest ih => exact fun s h hs => ih _ _ (load_write hs w)

theorem get_proto (h : List CacheWrite) : (cacheAfter h).get "__proto__" = none := by
  induction h using List.reverseRecOn with
  | nil => rfl
  | append_singleton h w ih =>
    rw [cacheAfter_snoc, CacheWrite.put]
    rcases get_evictOldest (m := w.store (cacheAfter h)) "__proto__" with hget | hget
    · exact hget
    · rw [hget, CacheWrite.store, CacheStore.assign]
      split_ifs with hproto
      · exact ih
      · rw [OrderedMap.get_set, if_neg fun heq => hproto heq.symm, ih]

variable {community : String}

theorem get_put (hget : (w.put (cacheAfter h)).get community ≠ none) :
    (w.put (cacheAfter h)).get community =
      if w.community = community then some (w.entry ((cacheAfter h).get community))
      else (cacheAfter h).get community := by
  have hput : (w.put (cacheAfter h)).get community = (w.store (cacheAfter h)).get community :=
    (get_evictOldest community).resolve_left hget
  rw [hput, CacheWrite.store, CacheStore.assign]
  split_ifs with hproto hsame hsame
  · -- That key is never cached.
    rw [← hsame, hproto] at hget
    have habsent := get_proto (h ++ [w])
    rw [cacheAfter_snoc] at habsent
    exact absurd habsent hget
  · rfl
  · rw [OrderedMap.get_set, if_pos hsame.symm, hsame]
  · rw [OrderedMap.get_set, if_neg fun heq => hsame heq.symm]

def Stays (before : List CacheWrite) (w : CacheWrite) (after : List CacheWrite)
    (community : String) : Prop :=
  ∀ next, next <+: after → (cacheAfter (before ++ w :: next)).get community ≠ none

instance (before : List CacheWrite) (w : CacheWrite) (after : List CacheWrite)
    (community : String) : Decidable (Stays before w after community) :=
  decidable_of_iff (∀ next ∈ after.inits,
    ((cacheAfter (before ++ w :: next)).get community).isSome = true) (by
      unfold Stays
      simp only [Option.ne_none_iff_isSome, List.mem_inits])

variable {before after : List CacheWrite}

theorem stays_snoc {w v : CacheWrite} :
    Stays before w (after ++ [v]) community ↔ Stays before w after community ∧
      (cacheAfter (before ++ w :: (after ++ [v]))).get community ≠ none := by
  unfold Stays
  simp only [List.prefix_concat_iff]
  constructor
  · intro h
    exact ⟨fun next hnext => h next (Or.inr hnext), h _ (Or.inl rfl)⟩
  · rintro ⟨hstays, hlast⟩ next (rfl | hnext)
    · exact hlast
    · exact hstays next hnext

/-- What the cache holds of an arbiter after some writes: nothing of one who was never named, else
what the latest write that named the arbiter left, while the community stayed. -/
structure HeldOf (h : List CacheWrite) (community arbiter : String)
    (l : List (PoolBond × ℤ)) : Prop where
  unnamed : (∀ w ∈ h, ¬ w.Names community arbiter) → generation arbiter l = []
  latest : ∀ before w after, h = before ++ w :: after → w.Names community arbiter →
    (∀ v ∈ after, ¬ v.Names community arbiter) → generation arbiter l =
      if Stays before w after community then (w.bondsOf arbiter).map fun b => (b, w.nowMs) else []

theorem heldOf_snoc {v : CacheWrite} {community arbiter : String}
    {l l' : List (PoolBond × ℤ)} (hl : HeldOf h community arbiter l)
    (hl' : l' = if (v.put (cacheAfter h)).get community = none then []
      else if v.community = community then v.merge l else l) :
    HeldOf (h ++ [v]) community arbiter l' := by
  -- What becomes of the arbiter when the write does not name the arbiter.
  have hkept : ¬ v.Names community arbiter → generation arbiter l' =
      if (v.put (cacheAfter h)).get community = none then [] else generation arbiter l := by
    intro hnames
    rw [hl']
    split_ifs with hgone hsame
    · rfl
    · exact generation_merge_of_not_named (fun hnamed => hnames ⟨hsame, hnamed⟩) l
    · rfl
  constructor
  case unnamed =>
    intro hnever
    have hv := hnever v (List.mem_append_right _ List.mem_cons_self)
    rw [hkept hv, hl.unnamed fun w hw => hnever w (List.mem_append_left _ hw), ite_self]
  case latest =>
    intro before w after heq hw hafter
    rcases List.eq_nil_or_concat after with rfl | ⟨after, v', rfl⟩
    · -- The write itself names the arbiter.
      obtain ⟨rfl, hvw⟩ := List.append_inj' heq rfl
      obtain rfl := (List.cons.inj hvw).1
      have hstays : Stays h v [] community ↔ (v.put (cacheAfter h)).get community ≠ none := by
        unfold Stays
        simp only [List.prefix_nil, forall_eq, cacheAfter_snoc]
      rw [hl']
      by_cases hgone : (v.put (cacheAfter h)).get community = none
      · rw [if_pos hgone, if_neg fun hs => hstays.mp hs hgone]
        rfl
      · rw [if_neg hgone, if_pos hw.1, if_pos (hstays.mpr hgone),
          generation_merge_of_named hw.2]
    · -- An earlier one does.
      rw [List.concat_eq_append] at heq hafter ⊢
      have hsplit : h ++ [v] = (before ++ w :: after) ++ [v'] := by
        rw [heq, List.append_assoc, List.cons_append]
      obtain ⟨rfl, hvv⟩ := List.append_inj' hsplit rfl
      obtain rfl := (List.cons.inj hvv).1
      have hv := hafter v (List.mem_append_right _ List.mem_cons_self)
      have hlast : cacheAfter (before ++ w :: (after ++ [v])) =
          v.put (cacheAfter (before ++ w :: after)) := by
        rw [← cacheAfter_snoc, List.append_assoc, List.cons_append]
      rw [hkept hv, hl.latest before w after rfl hw fun u hu =>
        hafter u (List.mem_append_left _ hu)]
      simp only [stays_snoc, hlast]
      by_cases hgone : (v.put (cacheAfter (before ++ w :: after))).get community = none
      · rw [if_pos hgone, if_neg fun hboth => hboth.2 hgone]
      · rw [if_neg hgone]
        by_cases hstays : Stays before w after community
        · rw [if_pos hstays, if_pos ⟨hstays, hgone⟩]
        · rw [if_neg hstays, if_neg fun hboth => hstays hboth.1]

theorem held_of_run (h : List CacheWrite) (community : String) :
    ∃ l, Represents ((cacheAfter h).get community) l ∧
      ∀ arbiter, HeldOf h community arbiter l := by
  induction h using List.reverseRecOn with
  | nil =>
    refine ⟨[], rfl, fun arbiter => ⟨fun _ => rfl, fun before w after heq => ?_⟩⟩
    exact absurd heq.symm (by simp)
  | append_singleton h v ih =>
    obtain ⟨l, hrep, hheld⟩ := ih
    refine ⟨_, ?_, fun arbiter => heldOf_snoc (hheld arbiter) rfl⟩
    rw [cacheAfter_snoc]
    split_ifs with hgone hsame
    · rw [hgone]
      rfl
    · rw [get_put hgone, if_pos hsame]
      exact entry_holds hrep
    · rw [get_put hgone, if_neg hsame]
      exact hrep

/-! ### Reads -/

def isRecent (allowStale : Bool) (nowMs verifiedAt : ℤ) : Bool :=
  allowStale || nowMs - verifiedAt ≤ bondedPoolCacheTtlMs

theorem recentBonds_stored (entry : CacheEntry) (nowMs : ℤ) (allowStale : Bool)
    (l : List (PoolBond × ℤ)) :
    recentBonds entry nowMs allowStale (l.map storedBond) =
      some ((l.filter fun e => isRecent allowStale nowMs e.2).map fun e => e.1.val) := by
  induction l with
  | nil => rfl
  | cons e rest ih =>
    rw [List.map_cons, recentBonds, deserialize_stored, ih, List.filter_cons]
    have htime : (storedBond e).verifiedAt.getD entry.verifiedAt = e.2 := rfl
    rw [Option.bind_eq_bind, Option.bind_some, Option.bind_eq_bind, Option.bind_some, htime]
    unfold isRecent
    split_ifs
    · rfl
    · rfl

def servedBonds (s : Stored CacheStore) (community arbiter : String) (nowMs : ℤ)
    (allowStale : Bool) : List CachedBond :=
  ((readCachedCommunityBonds .none s community nowMs allowStale).getD []).filter fun b =>
    toLowerCase b.npub = arbiter

theorem served_of_represents (h : Represents ((loadCache .none s).get community) l)
    (arbiter : String) (nowMs : ℤ) (allowStale : Bool) :
    servedBonds s community arbiter nowMs allowStale =
      ((generation arbiter l).filter fun e => isRecent allowStale nowMs e.2).map
        fun e => e.1.val := by
  have hread : (readCachedCommunityBonds .none s community nowMs allowStale).getD [] =
      (l.filter fun e => isRecent allowStale nowMs e.2).map fun e => e.1.val := by
    unfold readCachedCommunityBonds
    cases hget : (loadCache .none s).get community with
    | none =>
      rw [hget] at h
      have hl : l = [] := h
      rw [hl]
      rfl
    | some entry =>
      rw [hget] at h
      rw [Option.bind_eq_bind, Option.bind_some, h.bonds, recentBonds_stored, Option.bind_eq_bind,
        Option.bind_some]
      split_ifs with hempty
      · rw [List.isEmpty_iff.mp hempty]
        rfl
      · rfl
  rw [servedBonds, hread, List.filter_map, generation, List.filter_filter, List.filter_filter]
  refine congrArg _ (List.filter_congr fun e _ => ?_)
  exact Bool.and_comm _ _

/-! ### Room for communities -/

theorem mem_keys {m : CacheStore} {key : String} : key ∈ m.keys ↔ m.get key ≠ none := by
  rw [OrderedMap.keys, List.mem_map, Option.ne_none_iff_exists']
  constructor
  · rintro ⟨e, he, rfl⟩
    exact ⟨e.2, (OrderedMap.get_eq_some_iff ..).mpr he⟩
  · rintro ⟨entry, hget⟩
    exact ⟨(key, entry), (OrderedMap.get_eq_some_iff ..).mp hget, rfl⟩

theorem get_store (w : CacheWrite) (m : CacheStore) (community : String) :
    (w.store m).get community = if w.community = community ∧ community ≠ "__proto__"
      then some (w.entry (m.get community)) else m.get community := by
  rw [CacheWrite.store, CacheStore.assign]
  by_cases hsame : w.community = community
  · subst hsame
    by_cases hproto : w.community = "__proto__"
    · rw [if_pos hproto, if_neg fun hboth => hboth.2 hproto]
    · rw [if_neg hproto, if_pos ⟨rfl, hproto⟩, OrderedMap.get_set, if_pos rfl]
  · have hold : ¬ (w.community = community ∧ community ≠ "__proto__") := fun hboth => hsame hboth.1
    rw [if_neg hold]
    split_ifs
    · rfl
    · rw [OrderedMap.get_set, if_neg fun heq => hsame heq.symm]

variable {communities : List String}

theorem written_of_keys (hall : ∀ w ∈ h, w.community ∈ communities) :
    ∀ community, (cacheAfter h).get community ≠ none → community ∈ communities := by
  induction h using List.reverseRecOn with
  | nil => exact fun community hget => absurd rfl hget
  | append_singleton h w ih =>
    intro community hget
    have hrest := ih fun v hv => hall v (List.mem_append_left _ hv)
    rw [cacheAfter_snoc] at hget
    have hput : (w.put (cacheAfter h)).get community = (w.store (cacheAfter h)).get community :=
      (get_evictOldest community).resolve_left hget
    rw [hput, get_store] at hget
    split_ifs at hget with hnew
    · exact hnew.1 ▸ hall w (List.mem_append_right _ List.mem_cons_self)
    · exact hrest community hget

theorem cached_of_few (hfew : communities.length ≤ bondedPoolCacheMaxCommunities)
    (hall : ∀ w ∈ h, w.community ∈ communities) (hw : w ∈ h)
    (hname : w.community ≠ "__proto__") : (cacheAfter h).get w.community ≠ none := by
  induction h using List.reverseRecOn with
  | nil => cases hw
  | append_singleton h v ih =>
    have hrest : ∀ u ∈ h, u.community ∈ communities := fun u hu =>
      hall u (List.mem_append_left _ hu)
    have hv : v.community ∈ communities := hall v (List.mem_append_right _ List.mem_cons_self)
    have hsubset : (v.store (cacheAfter h)).keys ⊆ communities := by
      intro key hkey
      rw [mem_keys, get_store] at hkey
      split_ifs at hkey with hnew
      · exact hnew.1 ▸ hv
      · exact written_of_keys hrest key hkey
    have hlength : (v.store (cacheAfter h)).entries.length ≤ bondedPoolCacheMaxCommunities := by
      have hkeys := (v.store (cacheAfter h)).nodup.subperm hsubset
      have hle := hkeys.length_le
      rw [List.length_map] at hle
      omega
    rw [cacheAfter_snoc, CacheWrite.put, evictOldest_of_le hlength, get_store]
    split_ifs with hnew
    · exact Option.some_ne_none _
    · rcases List.mem_append.mp hw with hw | hw
      · exact ih hrest hw
      · rw [List.mem_singleton] at hw
        exact absurd ⟨congrArg _ hw.symm, hname⟩ hnew

theorem stays_of_few (hfew : communities.length ≤ bondedPoolCacheMaxCommunities)
    (hall : ∀ v ∈ before ++ w :: after, v.community ∈ communities)
    (hname : w.community ≠ "__proto__") : Stays before w after w.community := by
  intro next hnext
  refine cached_of_few hfew (fun v hv => hall v ?_)
    (List.mem_append_right _ List.mem_cons_self) hname
  exact (List.append_sublist_append_left _ |>.mpr (hnext.sublist.cons_cons w)).subset hv

/-! ### The result -/

/-- After every run of writes, whatever storage did, a read serves of an arbiter nothing when no
write that the cache goes back to named the arbiter; else the bonds of the latest one that did, and
no other bond, as long as the community stayed cached and the write is within its lifetime.  A
community stays cached where the writes are about fifty communities at most. -/
theorem bonded_pool_generations (writes : List CacheWrite) (community npub : String) (nowMs : ℤ)
    (allowStale : Bool) :
    let stored := writes.foldl writeCachedCommunityBonds .missing
    let arbiter := toLowerCase npub
    let served := servedBonds stored community arbiter nowMs allowStale
    ((∀ w ∈ landedWrites writes, ¬ w.Names community arbiter) → served = []) ∧
      ∀ before w after, landedWrites writes = before ++ w :: after → w.Names community arbiter →
        (∀ v ∈ after, ¬ v.Names community arbiter) →
        (served = if Stays before w after community ∧
            (allowStale = true ∨ nowMs - w.nowMs ≤ bondedPoolCacheTtlMs)
          then (w.bondsOf arbiter).map Subtype.val else []) ∧
        ∀ communities : List String, communities.length ≤ bondedPoolCacheMaxCommunities →
          (∀ v ∈ landedWrites writes, v.community ∈ communities) → community ≠ "__proto__" →
          Stays before w after community := by
  intro stored arbiter served
  obtain ⟨l, hrep, hheld⟩ := held_of_run (landedWrites writes) community
  have hload : Represents ((loadCache .none stored).get community) l := by
    rw [load_run]
    exact hrep
  have hserved : served = ((generation arbiter l).filter
      fun e => isRecent allowStale nowMs e.2).map fun e => e.1.val :=
    served_of_represents hload arbiter nowMs allowStale
  constructor
  · intro hnever
    rw [hserved, (hheld arbiter).unnamed hnever]
    rfl
  · intro before w after heq hw hafter
    constructor
    · rw [hserved, (hheld arbiter).latest before w after heq hw hafter]
      by_cases hstays : Stays before w after community
      · have hrecent : isRecent allowStale nowMs w.nowMs = true ↔
            (allowStale = true ∨ nowMs - w.nowMs ≤ bondedPoolCacheTtlMs) := by
          rw [isRecent, Bool.or_eq_true, decide_eq_true_eq]
        rw [if_pos hstays, List.filter_map, List.map_map, Function.comp_def, Function.comp_def]
        by_cases htime : isRecent allowStale nowMs w.nowMs = true
        · rw [if_pos ⟨hstays, hrecent.mp htime⟩]
          simp only [htime, List.filter_true]
        · rw [if_neg fun hboth => htime (hrecent.mpr hboth.2)]
          simp only [htime, List.filter_false, List.map_nil]
      · rw [if_neg hstays, if_neg fun hboth => hstays hboth.1]
        rfl
    · intro communities hfew hall hname
      rw [← hw.1] at hname ⊢
      exact stays_of_few hfew (heq ▸ hall) hname

def poolBond (npub address : String) (h : '|' ∉ npub.toList := by decide) : PoolBond :=
  ⟨{ npub, community := "c0", address, lockUntil := 900000, actualSats := 1000
     claimedSats := 1000, funded := true, active := true, roles := [.arbiter] },
    { npub := h
      lockUntil := rfl
      actualSats := Int.natCast_nonneg 1000
      claimedSats := Int.natCast_nonneg 1000
      fundingTxid := fun hblank => by cases hblank
      roles := List.cons_ne_nil _ _
      hops := fun lineage hlineage => by cases hlineage
      announcedAt := fun time htime => by cases htime
      ownerXonly := fun hblank => by cases hblank }⟩

theorem bondsOf_single (npub address : String) (h : '|' ∉ npub.toList) (community : String)
    (nowMs : ℤ) : (CacheWrite.mk community [poolBond npub address h] nowMs .none).bondsOf
      (toLowerCase npub) = [poolBond npub address h] := by
  have hnamed : [poolBond npub address h].filter (fun b => b.arbiter = toLowerCase npub) =
      [poolBond npub address h] := by
    rw [List.filter_eq_self]
    intro b hb
    rw [List.mem_singleton.mp hb]
    exact decide_eq_true rfl
  exact (congrArg _ hnamed).trans (lastOfEach_of_nodup (List.nodup_singleton _))

/-- A later read names one of two arbiters again, with another bond: the old one is not served
beside it. -/
theorem bonded_pool_generations_renewed :
    let first : CacheWrite :=
      { community := "c0", bonds := [poolBond "a" "bc1x", poolBond "b" "bc1y"], nowMs := 0 }
    let second : CacheWrite := ⟨"c0", [poolBond "a" "bc1z"], 1000, .none⟩
    servedBonds ([first, second].foldl writeCachedCommunityBonds .missing) "c0" (toLowerCase "a")
      2000 false = [(poolBond "a" "bc1z").val] := by
  intro first second
  have hlanded : landedWrites [first, second] = [first, second] := rfl
  have hnames : second.Names "c0" (toLowerCase "a") :=
    ⟨rfl, poolBond "a" "bc1z", List.mem_cons_self, rfl⟩
  obtain ⟨hserved, hroom⟩ := (bonded_pool_generations [first, second] "c0" "a" 2000 false).2
    [first] second [] hlanded hnames fun v hv => by cases hv
  have hall : ∀ v ∈ landedWrites [first, second], v.community ∈ ["c0"] := by
    rw [hlanded]
    simp [first, second]
  have hstays := hroom ["c0"] (by decide) hall (by decide)
  have hrecent : (2000 : ℤ) - second.nowMs ≤ bondedPoolCacheTtlMs := by decide
  rw [hserved, if_pos ⟨hstays, Or.inr hrecent⟩, bondsOf_single]
  rfl

/-- Fifty-one writes, each about another community, a second apart. -/
def spreadWrites : List CacheWrite :=
  (List.range 51).map fun i => ⟨"c" ++ toString i, [poolBond "a" "bc1x"], 1000 * i, .none⟩

/-- The cache has room for fifty communities: the one that was written first is gone after a
minute. -/
theorem generations_fail :
    ¬ ∀ (writes : List CacheWrite) (community npub : String) (nowMs : ℤ),
      (∀ w ∈ writes, w.faults = .none) →
      ∀ before w after, writes = before ++ w :: after →
        w.Names community (toLowerCase npub) →
        (∀ v ∈ after, ¬ v.Names community (toLowerCase npub)) →
        nowMs - w.nowMs ≤ bondedPoolCacheTtlMs →
        servedBonds (writes.foldl writeCachedCommunityBonds .missing) community (toLowerCase npub)
          nowMs false = (w.bondsOf (toLowerCase npub)).map Subtype.val := by
  intro h
  have hother : ∀ v ∈ spreadWrites.tail, ¬ v.Names "c0" (toLowerCase "a") := by
    intro v hv hnames
    have hcommunity : ∀ v ∈ spreadWrites.tail, v.community ≠ "c0" := by decide +kernel
    exact hcommunity v hv hnames.1
  have hserved := h spreadWrites "c0" "a" 60000 (fun w hw => by
      obtain ⟨i, -, rfl⟩ := List.mem_map.mp hw
      rfl) [] ⟨"c0", [poolBond "a" "bc1x"], 0, .none⟩ spreadWrites.tail rfl
    ⟨rfl, poolBond "a" "bc1x", List.mem_cons_self, rfl⟩ hother (by decide)
  have hgone : (loadCache .none (spreadWrites.foldl writeCachedCommunityBonds .missing)).get "c0"
      = none := by
    rw [load_run]
    have hnone : ((cacheAfter (landedWrites spreadWrites)).get "c0").isNone = true := by
      decide +kernel
    exact Option.isNone_iff_eq_none.mp hnone
  have hempty := served_of_represents (l := []) (by rw [hgone]; rfl) (toLowerCase "a") 60000 false
  rw [bondsOf_single, hempty] at hserved
  cases hserved

end ChamaEscrow.Bond
