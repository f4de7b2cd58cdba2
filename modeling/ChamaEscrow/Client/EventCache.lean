import ChamaEscrow.Trade.Lifecycle

/-!
# The cache of trade events

`escrow-event-cache.ts`: a device keeps the events of a thousand trades, so that a trade can be
rebuilt without the relays.  Above that number the trades that are done make room first, and among
trades alike the one that was written first.

A trade is done by its stored status alone.  EXPIRED counts, although the LOCK of an expired trade
can still be paid out; CLAIMED does not, although nothing is left to recover.  `eviction_order` says
what makes room before what.
-/

namespace ChamaEscrow

open Library

variable {host : Host} {s s' : EscrowState} {e : ParsedEscrowEvent}

/-! ### Eviction -/

/-- What the eviction reads of a record. -/
structure CacheMeta where
  escrowId : String
  terminal : Bool
  updatedAt : ℤ

def isEvictableTerminal (status : EscrowStatus) : Bool := status.isTerminal

/-- The comparator of `selectEvictions`, as far as it is not positive. -/
def leavesFirst (a b : CacheMeta) : Bool :=
  if a.terminal ≠ b.terminal then a.terminal else a.updatedAt ≤ b.updatedAt

def selectEvictions (metas : List CacheMeta) (max : ℕ) : List String :=
  if metas.length ≤ max then []
  else ((metas.mergeSort leavesFirst).take (metas.length - max)).map CacheMeta.escrowId

def eventCacheMaxEscrows : ℕ := 1000

theorem leavesFirst_total (a b : CacheMeta) : (leavesFirst a b || leavesFirst b a) = true := by
  unfold leavesFirst
  cases a.terminal <;> cases b.terminal <;> simp [le_total]

theorem leavesFirst_trans (a b c : CacheMeta) (hab : leavesFirst a b = true)
    (hbc : leavesFirst b c = true) : leavesFirst a c = true := by
  unfold leavesFirst at *
  cases ha : a.terminal <;> cases hb : b.terminal <;> cases hc : c.terminal <;>
    simp_all
  · omega
  · omega

/-- What is removed comes before what is kept, and only the surplus is removed. -/
theorem selectEvictions_spec {metas : List CacheMeta} (hids : (metas.map CacheMeta.escrowId).Nodup)
    (max : ℕ) :
    (metas.filter fun m => m.escrowId ∈ selectEvictions metas max).length = metas.length - max ∧
      ∀ v ∈ metas, v.escrowId ∈ selectEvictions metas max →
        ∀ r ∈ metas, r.escrowId ∉ selectEvictions metas max → leavesFirst v r = true := by
  by_cases hfits : metas.length ≤ max
  · have hnone : selectEvictions metas max = [] := if_pos hfits
    rw [hnone]
    simp
    omega
  have hselect : selectEvictions metas max =
      ((metas.mergeSort leavesFirst).take (metas.length - max)).map CacheMeta.escrowId :=
    if_neg hfits
  set sorted := metas.mergeSort leavesFirst with hsorted
  have hperm : sorted.Perm metas := List.mergeSort_perm metas leavesFirst
  have hnodup : (sorted.map CacheMeta.escrowId).Nodup := (hperm.map _).nodup_iff.mpr hids
  have hinj : ∀ a ∈ sorted, ∀ b ∈ sorted, a.escrowId = b.escrowId → a = b :=
    fun a ha b hb => List.inj_on_of_nodup_map hnodup ha hb
  -- an id is selected just when its record is among the first ones
  have hmem {m : CacheMeta} (hm : m ∈ sorted) : m.escrowId ∈ selectEvictions metas max ↔
      m ∈ sorted.take (metas.length - max) := by
    rw [hselect, List.mem_map]
    constructor
    · rintro ⟨a, ha, hid⟩
      rwa [← hinj a (List.mem_of_mem_take ha) m hm hid]
    · exact fun h => ⟨m, h, rfl⟩
  have htake {m : CacheMeta} (hm : m ∈ sorted.take (metas.length - max)) : m ∈ sorted :=
    List.mem_of_mem_take hm
  have hdrop {m : CacheMeta} (hm : m ∈ sorted.drop (metas.length - max)) :
      m.escrowId ∉ selectEvictions metas max := by
    rw [hmem (List.mem_of_mem_drop hm)]
    exact fun h => List.disjoint_take_drop hnodup.of_map (Nat.le_refl _) h hm
  constructor
  · have hfirst : sorted.filter (fun m => m.escrowId ∈ selectEvictions metas max) =
        sorted.take (metas.length - max) := by
      conv_lhs => rw [← List.take_append_drop (metas.length - max) sorted]
      rw [List.filter_append, List.filter_eq_self.mpr, List.filter_eq_nil_iff.mpr,
        List.append_nil]
      · exact fun m hm => by simpa using hdrop hm
      · exact fun m hm => by simpa using (hmem (htake hm)).mpr hm
    rw [← (hperm.filter _).length_eq, hfirst, List.length_take, hperm.length_eq]
    omega
  · intro v hv hselected r hr hkept
    have hsplit := List.pairwise_mergeSort leavesFirst_trans leavesFirst_total metas
    rw [← hsorted, ← List.take_append_drop (metas.length - max) sorted,
      List.pairwise_append] at hsplit
    have hr' : r ∈ sorted.drop (metas.length - max) := by
      have hmem' := hperm.mem_iff.mpr hr
      rw [← List.take_append_drop (metas.length - max) sorted, List.mem_append] at hmem'
      exact hmem'.resolve_left fun h => hkept ((hmem (htake h)).mpr h)
    exact hsplit.2.2 v ((hmem (hperm.mem_iff.mpr hv)).mp hselected) r hr'

/-! ### Cached trades -/

/-- A cached trade: the state that replay last gave it, and when it was last written. -/
structure CachedTrade where
  state : EscrowState
  updatedAt : ℤ

/-- What `putCachedEvents` and `appendCachedEvents` write. -/
def CachedTrade.record (t : CachedTrade) : CacheMeta where
  escrowId := t.state.id
  terminal := isEvictableTerminal t.state.status
  updatedAt := t.updatedAt

/-- `maybeEvict` and `evictMemoryFallback` remove the trade. -/
def isEvicted (cache : List CachedTrade) (t : CachedTrade) : Bool :=
  t.state.id ∈ selectEvictions (cache.map CachedTrade.record) eventCacheMaxEscrows

/-- Funded, and neither claimed nor completed: shares of the LOCK may still be needed. -/
def CachedTrade.Recoverable (t : CachedTrade) : Prop :=
  t.state.hasLock = true ∧ t.state.status ≠ .claimed ∧ t.state.status ≠ .completed

theorem EscrowStatus.Published.of_cancelled {a : EscrowStatus}
    (h : EscrowStatus.Published a .cancelled) : a = .created := by
  cases h
  rfl

theorem Reached.status_of_lock (h : Reached host s) (hlock : s.hasLock = true) :
    s.status ≠ .created ∧ s.status ≠ .cancelled := by
  refine Reachable.invariant (I := fun s => s.hasLock = true →
    s.status ≠ .created ∧ s.status ≠ .cancelled) (fun s hs hlock => ?_)
    (fun s e s' hs h hlock => ?_) h hlock
  · obtain ⟨e, p, hborn⟩ := hs.newborn
    rw [hborn.hasLock] at hlock
    cases hlock
  · have hstep := applyToState_stepped h
    by_cases hbefore : s.hasLock = true
    · obtain ⟨hopen, hcancelled⟩ := hs hbefore
      rcases hstep.moves.published with hsame | hmoved
      · rw [hsame]
        exact ⟨hopen, hcancelled⟩
      · refine ⟨hmoved.ne_created, fun hafter => ?_⟩
        rw [hafter] at hmoved
        exact hopen hmoved.of_cancelled
    · obtain ⟨hkind, -, -, hhandled⟩ := hstep.of_new_lock (by simpa using hbefore) hlock
      rw [(hhandled.of_lock hkind).2]
      decide

theorem CachedTrade.Recoverable.expired {t : CachedTrade} (h : t.Recoverable)
    (hreached : Reached host t.state) (hdone : t.state.status.isTerminal = true) :
    t.state.status = .expired := by
  obtain ⟨hlock, -, hcompleted⟩ := h
  obtain ⟨-, hcancelled⟩ := hreached.status_of_lock hlock
  cases hs : t.state.status <;> simp_all [EscrowStatus.isTerminal]

theorem isEvicted_spec {cache : List CachedTrade} (hids : (cache.map fun t => t.state.id).Nodup) :
    (cache.filter (isEvicted cache)).length = cache.length - eventCacheMaxEscrows ∧
      ∀ t ∈ cache, isEvicted cache t = true → ∀ kept ∈ cache, isEvicted cache kept = false →
        leavesFirst t.record kept.record = true := by
  have hrecords : ((cache.map CachedTrade.record).map CacheMeta.escrowId).Nodup := by
    rw [List.map_map]
    exact hids
  obtain ⟨hcount, horder⟩ := selectEvictions_spec hrecords eventCacheMaxEscrows
  constructor
  · rw [List.filter_map, List.length_map, List.length_map] at hcount
    exact hcount
  · intro t ht hremoved kept hkept hstays
    exact horder t.record (List.mem_map_of_mem ht) (of_decide_eq_true hremoved) kept.record
      (List.mem_map_of_mem hkept) (of_decide_eq_false hstays)

/-- The cache removes the trades over its limit, and no more.  No recoverable trade is removed while
one with a final status stays, unless it has expired; and of trades that count alike the one that
was written first is removed. -/
theorem eviction_order (host : Host) (cache : List CachedTrade)
    (hreached : ∀ t ∈ cache, Reached host t.state)
    (hids : (cache.map fun t => t.state.id).Nodup) :
    (cache.filter (isEvicted cache)).length = cache.length - eventCacheMaxEscrows ∧
      ∀ t ∈ cache, isEvicted cache t = true → ∀ kept ∈ cache, isEvicted cache kept = false →
        (t.Recoverable → t.state.status ≠ .expired → kept.state.status.isTerminal = false) ∧
          (t.state.status.isTerminal = kept.state.status.isTerminal →
            t.updatedAt ≤ kept.updatedAt) := by
  obtain ⟨hcount, horder⟩ := isEvicted_spec hids
  refine ⟨hcount, fun t ht hremoved kept hkept hstays => ?_⟩
  have hbefore := horder t ht hremoved kept hkept hstays
  unfold leavesFirst at hbefore
  constructor
  · intro hrecoverable hlive
    have hnot : t.state.status.isTerminal ≠ true :=
      fun h => hlive (hrecoverable.expired (hreached t ht) h)
    by_contra hdone
    simp_all [CachedTrade.record, isEvictableTerminal]
  · intro halike
    simpa [CachedTrade.record, isEvictableTerminal, halike] using hbefore

/-! ### A full cache -/

def listingId (n : ℕ) : String := String.ofList (List.replicate n 'x')

theorem listingId_injective {m n : ℕ} (h : listingId m = listingId n) : m = n := by
  simpa [listingId] using congrArg (fun id => id.toList.length) h

theorem creatorMatches_listingId (n : ℕ) (pubkey : String) :
    creatorMatchesEscrowId (listingId n) pubkey = true := by
  have hsingle : (listingId n).toList.splitOn '_' = [(listingId n).toList] := by
    refine List.splitOnP_eq_singleton fun c hc => ?_
    rw [listingId, String.toList_ofList] at hc
    rw [List.eq_of_mem_replicate hc]
    decide
  rw [creatorMatchesEscrowId, escrowIdCreatorTag, hsingle]
  rfl

def listingEvent (n : ℕ) : ParsedEscrowEvent := { sampleCreate with escrowId := listingId n }

theorem exists_listing (n : ℕ) : ∃ s, Reached silentHost s ∧ s.id = listingId n ∧
    s.status = .created ∧ s.hasLock = false := by
  have hmatches : creatorMatchesEscrowId (listingEvent n).escrowId (listingEvent n).pubkey = true :=
    creatorMatches_listingId n _
  obtain ⟨p, hp, s, hs⟩ : ∃ p, (listingEvent n).payload = .create p ∧
      ∃ s, handleCreate silentHost (listingEvent n) p = .ok s := by
    refine ⟨_, rfl, ?_⟩
    unfold handleCreate
    rw [hmatches]
    exact ⟨_, rfl⟩
  have hborn := handleCreate_newborn hp hs
  have hcreated : Created silentHost s := (created_iff silentHost).mpr ⟨_, p, hp, hs⟩
  exact ⟨s, Run.start hcreated, hborn.id, hborn.status, hborn.hasLock⟩

/-- A funded trade that nobody settled in time. -/
theorem exists_expired_lock : ∃ s, Reached silentHost s ∧ s.id = "sm_sample" ∧
    s.status = .expired ∧ s.hasLock = true := by
  have hrun : (liveTrade silentHost sampleCreate [sampleJoin, sampleLock,
      sampleVote '3' 'b' 1800004000 .buyer .refund]).any (fun s =>
        s.id = "sm_sample" && s.status = .expired && s.hasLock) = true := by
    decide +kernel
  obtain ⟨s, hs, h⟩ := (Option.any_eq_true _ _).mp hrun
  simp only [Bool.and_eq_true, decide_eq_true_eq] at h
  exact ⟨s, liveTrade_reached silentHost hs, h.1.1, h.1.2, h.2⟩

theorem exists_full_cache : ∃ (trade : CachedTrade) (listings : List CachedTrade),
    trade.Recoverable ∧ trade.state.status = .expired ∧ listings.length = eventCacheMaxEscrows ∧
      (∀ t ∈ listings, t.state.status = .created ∧ t.state.hasLock = false) ∧
      (∀ t ∈ trade :: listings, Reached silentHost t.state) ∧
      ((trade :: listings).map fun t => t.state.id).Nodup := by
  obtain ⟨s, hs, hid, hexpired, hlock⟩ := exists_expired_lock
  choose listing hreached hlisting hopen hunfunded using exists_listing
  refine ⟨⟨s, 1⟩, (List.range eventCacheMaxEscrows).map fun n => ⟨listing n, 0⟩, ?_, hexpired, ?_,
    ?_, ?_, ?_⟩
  · exact ⟨hlock, by rw [hexpired]; decide, by rw [hexpired]; decide⟩
  · rw [List.length_map, List.length_range]
  · rw [List.forall_mem_map]
    exact fun n _ => ⟨hopen n, hunfunded n⟩
  · rw [List.forall_mem_cons, List.forall_mem_map]
    exact ⟨hs, fun n _ => hreached n⟩
  · rw [List.map_cons, List.map_map, List.nodup_cons]
    constructor
    · rw [List.mem_map]
      rintro ⟨n, -, hsame⟩
      have hmem : 's' ∈ (listing n).id.toList := by
        rw [show (listing n).id = "sm_sample" from hsame.trans hid]
        decide
      rw [hlisting, listingId, String.toList_ofList] at hmem
      exact absurd (List.eq_of_mem_replicate hmem) (by decide)
    · refine List.nodup_range.map fun m n h => listingId_injective ?_
      rw [← hlisting m, ← hlisting n]
      exact h

/-- The expired trade is removed from the full cache, and a listing that nobody funded stays. -/
theorem expired_trade_evicted : ∃ cache : List CachedTrade,
    (∀ t ∈ cache, Reached silentHost t.state) ∧ (cache.map fun t => t.state.id).Nodup ∧
      ∃ t ∈ cache, t.Recoverable ∧ isEvicted cache t = true ∧
        ∃ kept ∈ cache, ¬ kept.Recoverable ∧ isEvicted cache kept = false := by
  obtain ⟨trade, listings, hrecoverable, hexpired, hlength, hlistings, hreached, hids⟩ :=
    exists_full_cache
  obtain ⟨hcount, horder⟩ := isEvicted_spec hids
  rw [List.length_cons, hlength] at hcount
  have hevicted : isEvicted (trade :: listings) trade = true := by
    by_contra hstays
    rw [Bool.not_eq_true] at hstays
    obtain ⟨t, ht⟩ := List.exists_mem_of_length_pos (by rw [hcount]; decide)
    obtain ⟨hmem, hremoved⟩ := List.mem_filter.mp ht
    have hbefore := horder t hmem hremoved trade List.mem_cons_self hstays
    rcases List.mem_cons.mp hmem with rfl | hlisting
    · exact absurd hremoved (by simp [hstays])
    · simp [leavesFirst, CachedTrade.record, isEvictableTerminal, hexpired,
        (hlistings t hlisting).1, EscrowStatus.isTerminal] at hbefore
  refine ⟨_, hreached, hids, trade, List.mem_cons_self, hrecoverable, hevicted, ?_⟩
  by_contra hall
  push Not at hall
  have hself : (trade :: listings).filter (isEvicted (trade :: listings)) = trade :: listings := by
    refine List.filter_eq_self.mpr fun t ht => ?_
    rcases List.mem_cons.mp ht with rfl | hlisting
    · exact hevicted
    · by_contra hstays
      refine hall t ht (fun h => ?_) (by simpa using hstays)
      exact absurd h.1 (by simp [(hlistings t hlisting).2])
  rw [hself, List.length_cons, hlength] at hcount
  exact absurd hcount (by decide)

/-- From the full cache one trade is removed. -/
theorem eviction_order_full : ∃ cache : List CachedTrade,
    cache.length = eventCacheMaxEscrows + 1 ∧ (cache.filter (isEvicted cache)).length = 1 := by
  obtain ⟨trade, listings, -, -, hlength, -, hreached, hids⟩ := exists_full_cache
  have hcount := (eviction_order silentHost (trade :: listings) hreached hids).1
  rw [List.length_cons, hlength] at hcount
  exact ⟨trade :: listings, by rw [List.length_cons, hlength], hcount⟩

end ChamaEscrow
