import ChamaEscrow.Client.TradeLoad

/-!
# Reloads

What a load keeps of the trade that is held, whatever the relays answer and whatever was evicted.
A load replays a list that covers the whole earlier chain, so an event of the chain is missing from
the result only where the replay itself left it out; chat messages are put back; the downgrade test
does the rest.

* `reload_keeps`: what a load writes advances the state that was held, unless the replay refused its
  LOCK or ended the trade.
* `reload_shrinks`: a cancellation that was signed before a JOIN takes the JOIN out of the trade,
  and an evicted premium note does not come back.
-/

namespace ChamaEscrow

open Js Library EventContent

open EscrowStatus (Published)

namespace TradeLoad

/-! ### Replays that are no downgrade -/

def HasRaw (raws : List SignedEvent) (id : String) : Prop := ∃ raw ∈ raws, raw.id = id

/-- What a state keeps of the one it takes the place of. -/
structure Advances (s s' : EscrowState) : Prop where
  reached : Relation.ReflTransGen Published s.status s'.status
  chain : s'.status = s.status → ∀ e ∈ s.eventChain, s'.hasEvent e.id = true
  accept : s'.status = s.status → ∀ id, truthyKey s.lock.acceptEventId = some id →
    s'.lock.acceptEventId = some id
  release : s'.status = s.status → ∀ id, truthyKey (releaseEventId s) = some id →
    releaseEventId s' = some id

theorem reaches_of_rank {a b : EscrowStatus} (hb : b.isTerminal = false)
    (h : statusProgressRank a ≤ statusProgressRank b) : Relation.ReflTransGen Published a b := by
  have hlocked : Relation.ReflTransGen Published .created .locked := .single .lock
  have happroved : Relation.ReflTransGen Published .locked .approved := .single .approve
  have hclaimed : Relation.ReflTransGen Published .approved .claimed := .single .claim
  cases b with
  | created =>
    cases a with
    | created => exact .refl
    | _ => exact absurd h (by decide)
  | locked =>
    cases a with
    | created => exact hlocked
    | locked => exact .refl
    | _ => exact absurd h (by decide)
  | approved =>
    cases a with
    | created => exact hlocked.trans happroved
    | locked => exact happroved
    | approved => exact .refl
    | _ => exact absurd h (by decide)
  | claimed =>
    cases a with
    | created => exact (hlocked.trans happroved).trans hclaimed
    | locked => exact happroved.trans hclaimed
    | approved => exact hclaimed
    | claimed => exact .refl
    | _ => exact absurd h (by decide)
  | _ => cases hb

theorem step_kept {current incoming : Option String} (h : losesStep current incoming = false)
    {id : String} (hid : truthyKey current = some id) : incoming = some id := by
  unfold losesStep at h
  rw [hid, Option.isSome_some, Bool.true_and, decide_eq_false_iff_not, not_not] at h
  rw [← h]
  exact (Option.filter_eq_some_iff.mp hid).1

variable {replayed : Replayed}

theorem advances_of_kept {s : EscrowState} (h : isPartialReplayDowngrade (some s) replayed = false)
    (hlock : refusesLock s replayed = false) (hopen : replayed.state.status.isTerminal = false) : Advances s replayed.state := by
  unfold isPartialReplayDowngrade at h
  dsimp only at h
  rw [if_neg (by simp [hlock]), if_neg (by simp [hopen])] at h
  split_ifs at h with hrank hstatus hchain
  · exact {
      reached := reaches_of_rank hopen (not_lt.mp hrank)
      chain := fun heq => absurd heq hstatus
      accept := fun heq => absurd heq hstatus
      release := fun heq => absurd heq hstatus }
  · rw [Bool.or_eq_false_iff] at h
    refine {
      reached := reaches_of_rank hopen (not_lt.mp hrank)
      chain := fun _ e he => ?_
      accept := fun _ _ => step_kept h.1
      release := fun _ _ => step_kept h.2 }
    by_contra hmissing
    rw [Bool.not_eq_true] at hmissing
    exact hchain (List.any_eq_true.mpr ⟨e, he, by rw [hmissing]; rfl⟩)

/-! ### The chat -/

theorem mem_reseededChat {s incoming : EscrowState} {m : ParsedEscrowEvent}
    (hm : m ∈ s.chatMessages) :
    ∃ m' ∈ reseededChat (some s) incoming, m'.id = m.id := by
  unfold reseededChat
  dsimp only [Option.map_some, Option.getD_some]
  by_cases hhave : (incoming.chatMessages.any fun other => other.id = m.id) = true
  · obtain ⟨other, hother, hid⟩ := List.any_eq_true.mp hhave
    rw [decide_eq_true_eq] at hid
    refine ⟨other, ?_, hid⟩
    split_ifs
    · exact hother
    · exact (List.perm_insertionSort _ _).mem_iff.mpr (List.mem_append_left _ hother)
  · have hmissing : m ∈ s.chatMessages.filter fun m =>
        !(incoming.chatMessages.any fun other => other.id = m.id) := by
      refine List.mem_filter.mpr ⟨hm, ?_⟩
      rw [Bool.not_eq_true] at hhave
      rw [hhave]
      rfl
    have hne := List.ne_nil_of_mem hmissing
    rw [if_neg (by rwa [List.isEmpty_iff])]
    exact ⟨m, (List.perm_insertionSort _ _).mem_iff.mpr (List.mem_append_right _ hmissing), rfl⟩

/-! ### What a load keeps -/

structure Adopted (l : Loader) (raws : List SignedEvent) (replayed : Replayed)
    (s s' : EscrowState) : Prop where
  replay : runReplay l.host l.reader l.context l.creator l.userAction raws = .ok replayed
  state : s' = { replayed.state with chatMessages := s'.chatMessages }
  chain : ∀ e ∈ s.eventChain, HasRaw raws e.id
  advances : refusesLock s replayed = false → replayed.state.status.isTerminal = false →
    Advances s s'

/-- The hot map keeps its entry, and `chat` tells the chat messages by their ids among all that the
load comes to read. -/
structure Undisturbed (l : Loader) (chat : String → Bool) (w : TradeWorld)
    (choices : List TradeChoice) : Prop where
  kept : TradeChoice.crowdedOut ∉ choices
  hot : ∀ e ∈ w.hot.getD [], e.isChat = chat e.id
  durable : ∀ e ∈ w.durable, e.isChat = chat e.id
  chain : ∀ e ∈ chainRaws l (w.held.map HeldState.state), e.isChat = chat e.id
  answers : ∀ events, TradeChoice.answer events ∈ choices → ∀ e ∈ events, e.isChat = chat e.id

def Keeps (l : Loader) (chat : String → Bool) (choices : List TradeChoice) (w : TradeWorld)
    (s : EscrowState) (w' : TradeWorld) : Prop :=
  ∃ held, w'.held = some held ∧
    (∀ m ∈ s.chatMessages, ∃ m' ∈ held.state.chatMessages, m'.id = m.id) ∧
    (held.state = s ∨ ∃ raws replayed, Adopted l raws replayed s held.state ∧
      (Undisturbed l chat w choices →
        ∀ e ∈ w.hot.getD [], chat e.id = false → HasRaw raws e.id))

section Attempts

variable (l : Loader) (chat : String → Bool) (choices : List TradeChoice) (w₀ : TradeWorld)

/-- What every attempt of a load starts from. -/
structure Ready (w : TradeWorld) : Prop where
  held : w.held = w₀.held
  durable : w.durable = w₀.durable
  kinds : Undisturbed l chat w₀ choices → ∀ e ∈ w.hot.getD [], e.isChat = chat e.id
  known : Undisturbed l chat w₀ choices → ∀ e ∈ w₀.hot.getD [], chat e.id = false →
    HasRaw (w.hot.getD []) e.id

structure Covers (raws : List SignedEvent) : Prop where
  chain : ∀ e ∈ chainRaws l (w₀.held.map HeldState.state), HasRaw raws e.id
  kinds : Undisturbed l chat w₀ choices → ∀ e ∈ raws, e.isChat = chat e.id
  known : Undisturbed l chat w₀ choices → ∀ e ∈ w₀.hot.getD [], chat e.id = false →
    HasRaw raws e.id

variable {l chat choices w₀} {w : TradeWorld} {raws : List SignedEvent}

variable {more : List SignedEvent}

theorem hasRaw_merge {id : String}
    (h : HasRaw raws id ∨ HasRaw more id) : HasRaw (mergeRawEventsById raws more) id := by
  rcases h with ⟨raw, hraw, rfl⟩ | ⟨raw, hraw, rfl⟩
  · exact exists_mem_merge (Or.inl hraw)
  · exact exists_mem_merge (Or.inr hraw)

theorem Covers.merge (h : Covers l chat choices w₀ raws)
    (hmore : Undisturbed l chat w₀ choices → ∀ e ∈ more, e.isChat = chat e.id) :
    Covers l chat choices w₀ (mergeRawEventsById raws more) where
  chain e he := hasRaw_merge (Or.inl (h.chain e he))
  kinds hcalm e he := (mem_of_mem_merge he).elim (h.kinds hcalm e) (hmore hcalm e)
  known hcalm e he hchat := hasRaw_merge (Or.inl (h.known hcalm e he hchat))

theorem Covers.of_nil (h : Covers l chat choices w₀ [])
    (hraws : Undisturbed l chat w₀ choices → ∀ e ∈ raws, e.isChat = chat e.id) :
    Covers l chat choices w₀ raws where
  chain e he := by
    obtain ⟨raw, hraw, -⟩ := h.chain e he
    cases hraw
  kinds := hraws
  known hcalm e he hchat := by
    obtain ⟨raw, hraw, -⟩ := h.known hcalm e he hchat
    cases hraw

theorem Ready.covers (h : Ready l chat choices w₀ w) :
    Covers l chat choices w₀
      (mergeRawEventsById (w.hot.getD []) (chainRaws l (w.held.map HeldState.state))) := by
  rw [h.held]
  exact {
    chain := fun e he => hasRaw_merge (Or.inr ⟨e, he, rfl⟩)
    kinds := fun hcalm e he => (mem_of_mem_merge he).elim (h.kinds hcalm e) (hcalm.chain e)
    known := fun hcalm e he hchat => hasRaw_merge (Or.inl (h.known hcalm e he hchat)) }

theorem Ready.keepKnown (h : Ready l chat choices w₀ w) (hraws : Covers l chat choices w₀ raws) :
    Ready l chat choices w₀
      { w with hot := some (compactHotRawEvents (mergeRawEventsById (w.hot.getD []) raws)) } := by
  refine ⟨h.held, h.durable, fun hcalm e he => ?_, fun hcalm e he hchat => ?_⟩
  · have hmerged := (List.mem_filter.mp (mem_of_mem_dedup he)).1
    exact (mem_of_mem_merge hmerged).elim (h.kinds hcalm e) (hraws.kinds hcalm e)
  · have hmerged : HasRaw (mergeRawEventsById (w.hot.getD []) raws) e.id :=
      hasRaw_merge (Or.inl (h.known hcalm e he hchat))
    obtain ⟨raw, hraw, hid⟩ := hmerged
    have hkind : raw.isChat = chat raw.id :=
      (mem_of_mem_merge hraw).elim (h.kinds hcalm raw) (hraws.kinds hcalm raw)
    rw [hid, hchat] at hkind
    have hstays : raw ∈ (mergeRawEventsById (w.hot.getD []) raws).filter fun e => !e.isChat :=
      List.mem_filter.mpr ⟨hraw, by rw [hkind]; rfl⟩
    obtain ⟨raw', hraw', hid'⟩ := exists_mem_dedup hstays List.not_mem_nil
    exact ⟨raw', hraw', hid'.trans hid⟩

/-- What the map evicts at once is not promised. -/
theorem Ready.crowdedOut (h : Ready l chat choices w₀ w) (hc : TradeChoice.crowdedOut ∈ choices) :
    Ready l chat choices w₀ { w with hot := none } :=
  ⟨h.held, h.durable, fun hcalm => absurd hc hcalm.kept, fun hcalm => absurd hc hcalm.kept⟩

variable {w' : TradeWorld} {c : TradeChoice}

theorem perform_held {r : LoadOp.held.Reply} (h : w.perform c .held = some (r, w')) :
    r = (w.held.map HeldState.state, w.hot.getD []) ∧ w' = { w with arrived := [] } := by
  cases c with
  | done =>
    obtain ⟨rfl, rfl⟩ := Prod.mk.inj (Option.some.inj h)
    exact ⟨rfl, rfl⟩
  | _ => cases h

variable {r : List SignedEvent}

theorem perform_fetchEscrowEvents {since : Option JsNumber}
    (h : w.perform c (.fetchEscrowEvents since) = some (r, w')) : c = .answer r ∧ w' = w := by
  cases c with
  | answer events =>
    obtain ⟨rfl, rfl⟩ := Prod.mk.inj (Option.some.inj h)
    exact ⟨rfl, rfl⟩
  | _ => cases h

theorem perform_fetchOnce {ids : List String} (h : w.perform c (.fetchOnce ids) = some (r, w')) :
    c = .answer r ∧ w' = w := by
  cases c with
  | answer events =>
    obtain ⟨rfl, rfl⟩ := Prod.mk.inj (Option.some.inj h)
    exact ⟨rfl, rfl⟩
  | _ => cases h

theorem perform_hasHot {r : Bool}
    (h : w.perform c .hasHot = some (r, w')) : r = w.hot.isSome ∧ w' = w := by
  cases c with
  | done =>
    obtain ⟨rfl, rfl⟩ := Prod.mk.inj (Option.some.inj h)
    exact ⟨rfl, rfl⟩
  | _ => cases h

/-- A read of the record that times out finds nothing. -/
theorem perform_getCachedEvents
    (h : w.perform c .getCachedEvents = some (r, w')) : r ⊆ w.durable ∧ w' = w := by
  cases c with
  | done =>
    obtain ⟨rfl, rfl⟩ := Prod.mk.inj (Option.some.inj h)
    exact ⟨List.Subset.refl _, rfl⟩
  | timedOut =>
    obtain ⟨rfl, rfl⟩ := Prod.mk.inj (Option.some.inj h)
    exact ⟨List.nil_subset _, rfl⟩
  | _ => cases h

theorem perform_beforeDeadline {r : Bool}
    (h : w.perform c .beforeDeadline = some (r, w')) : w' = w := by
  cases c with
  | done => exact (Prod.mk.inj (Option.some.inj h)).2.symm
  | timedOut => exact (Prod.mk.inj (Option.some.inj h)).2.symm
  | _ => cases h

theorem perform_demote {s : EscrowState} {r : Unit}
    (h : w.perform c (.demote s) = some (r, w')) : w' = { w with held := some ⟨s, true⟩ } := by
  cases c with
  | done => exact (Prod.mk.inj (Option.some.inj h)).2.symm
  | _ => cases h

theorem setHot_cases {events : List SignedEvent} {r : Unit} (h : w.setHot events c = some (r, w')) :
    (w' = { w with hot := some events }) ∨ (c = .crowdedOut ∧ w' = { w with hot := none }) := by
  unfold TradeWorld.setHot at h
  split at h
  · obtain ⟨-, rfl⟩ := Prod.mk.inj (Option.some.inj h)
    exact Or.inl rfl
  · obtain ⟨-, rfl⟩ := Prod.mk.inj (Option.some.inj h)
    exact Or.inr ⟨rfl, rfl⟩
  · cases h

abbrev undividedLoad (l : Loader) (choices : List TradeChoice) :
    Discipline (tradePlatform l.host) :=
  .alone (tradePlatform l.host) fun c => c ∈ choices

theorem runPass_eq_ok (h : runPass l raws = .ok (.ok replayed)) :
    runReplay l.host l.reader l.context l.creator l.userAction raws = .ok replayed := by
  unfold runPass at h
  split at h
  · rename_i found hreplay
    obtain rfl := Except.ok.inj (Except.ok.inj h)
    exact hreplay
  · cases h
  · cases h

def Repairs (l : Loader) (chat : String → Bool) (choices : List TradeChoice) (w₀ w : TradeWorld)
    (x : Repaired) (w' : TradeWorld) : Prop :=
  w' = w ∧ ∀ raws replayed, x = .ok (some (raws, replayed)) →
    Covers l chat choices w₀ raws ∧ runPass l raws = .ok (.ok replayed)

theorem repairs_nothing : Repairs l chat choices w₀ w (.ok none) w := by
  refine ⟨rfl, fun raws replayed h => ?_⟩
  cases Except.ok.inj h

theorem repairs_fault {fault : ReadFault} : Repairs l chat choices w₀ w (.error fault) w := by
  refine ⟨rfl, fun raws replayed h => ?_⟩
  cases h

theorem repairs_found (hraws : Covers l chat choices w₀ raws)
    (hpass : runPass l raws = .ok (.ok replayed)) :
    Repairs l chat choices w₀ w (.ok (some (raws, replayed))) w := by
  refine ⟨rfl, fun raws' replayed' h => ?_⟩
  obtain ⟨rfl, rfl⟩ := Prod.mk.inj (Option.some.inj (Except.ok.inj h))
  exact ⟨hraws, hpass⟩

variable {failure : ValidationError}

theorem safe_fetchPredecessors {rounds : ℕ} {asked : List String}
    (hraws : Covers l chat choices w₀ raws) :
    (undividedLoad l choices).Safe (Repairs l chat choices w₀ w)
      (fetchPredecessors l asked rounds raws failure) w := by
  induction rounds generalizing asked raws failure with
  | zero => exact repairs_nothing
  | succ rounds ih =>
    unfold fetchPredecessors
    split_ifs with hcode
    · exact repairs_nothing
    refine Discipline.safe_alone_call fun c remaining w₁ hc hperform => ?_
    obtain rfl := perform_beforeDeadline hperform
    dsimp only [Prog.bind]
    split_ifs with hstop
    · exact repairs_nothing
    refine Discipline.safe_alone_call fun c fetched w₂ hc hperform => ?_
    obtain ⟨rfl, rfl⟩ := perform_fetchOnce hperform
    dsimp only [Prog.bind]
    split_ifs with hfound
    · exact repairs_nothing
    have hmore : Covers l chat choices w₀ (mergeRawEventsById raws
        (usablePredecessors fetched (missingPredecessorIds raws failure.eventId asked)
          l.escrowId)) :=
      hraws.merge fun hcalm e he => hcalm.answers _ hc e (List.mem_filter.mp he).1
    split
    · exact repairs_fault
    · rename_i hpass
      exact repairs_found hmore hpass
    · exact ih hmore

theorem safe_repair {durableTried : Bool}
    (hw : Ready l chat choices w₀ w) (hraws : Covers l chat choices w₀ raws) :
    (undividedLoad l choices).Safe (Repairs l chat choices w₀ w)
      (repair l raws failure durableTried) w := by
  unfold repair
  split_ifs with hrepair htried
  · exact repairs_nothing
  · exact safe_fetchPredecessors hraws
  refine Discipline.safe_alone_call fun c durable w₁ hc hperform => ?_
  obtain ⟨hdurable, rfl⟩ := perform_getCachedEvents hperform
  have hmore : Covers l chat choices w₀ (mergeRawEventsById raws durable) :=
    hraws.merge fun hcalm e he => hcalm.durable e (hw.durable ▸ hdurable he)
  dsimp only [Prog.bind]
  split_ifs with hlonger
  · exact safe_fetchPredecessors hraws
  split
  · exact repairs_fault
  · rename_i hpass
    exact repairs_found hmore hpass
  · exact safe_fetchPredecessors hmore

theorem safe_seedFromCache {fetched : List SignedEvent} (hw : Ready l chat choices w₀ w)
    (hraws : Covers l chat choices w₀ raws)
    (hfetched : Undisturbed l chat w₀ choices → ∀ e ∈ fetched, e.isChat = chat e.id) :
    (undividedLoad l choices).Safe
      (fun x w' => Covers l chat choices w₀ x.1 ∧ Ready l chat choices w₀ w')
      (seedFromCache raws fetched) w := by
  unfold seedFromCache
  split_ifs with hempty
  · exact ⟨hraws, hw⟩
  refine Discipline.safe_alone_call fun c hasHot w₁ hc hperform => ?_
  obtain ⟨rfl, rfl⟩ := perform_hasHot hperform
  dsimp only [Prog.bind]
  split_ifs with hhot
  · exact ⟨hraws, hw⟩
  refine Discipline.safe_alone_call fun c durable w₂ hc hperform => ?_
  obtain ⟨hdurable, rfl⟩ := perform_getCachedEvents hperform
  dsimp only [Prog.bind]
  split_ifs with hnothing
  · exact ⟨hraws, hw⟩
  refine Discipline.safe_alone_call fun c _ w₃ hc hperform => ?_
  obtain rfl : raws = [] := by simpa using hempty
  have hkinds (hcalm : Undisturbed l chat w₀ choices) :
      ∀ e ∈ mergeRawEventsById durable fetched, e.isChat = chat e.id := fun e he =>
    (mem_of_mem_merge he).elim (fun he => hcalm.durable e (hw.durable ▸ hdurable he))
      (hfetched hcalm e)
  refine ⟨hraws.of_nil hkinds, ?_⟩
  rcases setHot_cases hperform with rfl | ⟨rfl, rfl⟩
  · refine ⟨hw.held, hw.durable, fun hcalm e he => ?_, fun hcalm e he hchat => ?_⟩
    · exact hcalm.durable e (hw.durable ▸ hdurable he)
    · obtain ⟨raw, hraw, -⟩ := hraws.known hcalm e he hchat
      cases hraw
  · exact hw.crowdedOut hc

variable {held : HeldState}

theorem keeps_held (hheld : w₀.held = some held)
    (h : w'.held = w₀.held) : Keeps l chat choices w₀ held.state w' := by
  refine ⟨held, h.trans hheld, fun m hm => ⟨m, hm, rfl⟩, Or.inl rfl⟩

theorem hasRaw_chain (hheld : w₀.held = some held)
    (hraws : Covers l chat choices w₀ raws) {e : ParsedEscrowEvent}
    (he : e ∈ held.state.eventChain) : HasRaw raws e.id := by
  have hraw : l.signed e ∈ chainRaws l (w₀.held.map HeldState.state) := by
    rw [hheld]
    exact List.mem_map.mpr ⟨e, he, rfl⟩
  have hid : (l.signed e).id = e.id := congrArg NostrEvent.id (l.signed_raw e)
  exact hid ▸ hraws.chain _ hraw

variable {again : Option (LoadProg LoadResult)}

theorem safe_settleReplay (hheld : w₀.held = some held) {cached fetched : List SignedEvent}
    (hw : Ready l chat choices w₀ w) (hraws : Covers l chat choices w₀ raws)
    (hpass : runPass l raws = .ok (.ok replayed))
    (hagain : ∀ next, again = some next → ∀ w, Ready l chat choices w₀ w →
      (undividedLoad l choices).Safe (fun _ => Keeps l chat choices w₀ held.state) next w) :
    (undividedLoad l choices).Safe (fun _ => Keeps l chat choices w₀ held.state)
      (settleReplay again (some held.state) cached fetched raws replayed) w := by
  unfold settleReplay
  dsimp only
  split
  · rename_i next hretry
    have hnext : again = some next := by
      split_ifs at hretry
      exact hretry
    refine Discipline.safe_alone_call fun c _ w₁ hc hperform => hagain next hnext w₁ ?_
    rcases setHot_cases hperform with rfl | ⟨rfl, rfl⟩
    · exact hw.keepKnown hraws
    · exact hw.crowdedOut hc
  · split_ifs with hdowngrade
    · refine Discipline.safe_alone_call fun c _ w₁ hc hperform => ?_
      refine keeps_held hheld ?_
      rcases setHot_cases hperform with rfl | ⟨rfl, rfl⟩
      · exact hw.held
      · exact hw.held
    · rw [Bool.not_eq_true] at hdowngrade
      refine Discipline.safe_alone_call fun c _ w₁ hc hperform => ?_
      have hadopted : w₁.held = some ⟨{ replayed.state with
          chatMessages := reseededChat (some held.state) replayed.state }, false⟩ := by
        rcases setHot_cases hperform with rfl | ⟨rfl, rfl⟩
        · rfl
        · rfl
      refine ⟨_, hadopted, fun m hm => mem_reseededChat hm, Or.inr ⟨raws, replayed, ?_,
        fun hcalm e he hchat => hraws.known hcalm e he hchat⟩⟩
      refine ⟨runPass_eq_ok hpass, rfl, fun e he => hasRaw_chain hheld hraws he, ?_⟩
      intro hlock hopen
      obtain ⟨hreached, hchain, haccept, hrelease⟩ := advances_of_kept hdowngrade hlock hopen
      exact ⟨hreached, hchain, haccept, hrelease⟩

theorem safe_loadAttempt (hheld : w₀.held = some held) (hw : Ready l chat choices w₀ w)
    (hagain : ∀ next, again = some next → ∀ w, Ready l chat choices w₀ w →
      (undividedLoad l choices).Safe (fun _ => Keeps l chat choices w₀ held.state) next w) :
    (undividedLoad l choices).Safe (fun _ => Keeps l chat choices w₀ held.state)
      (loadAttempt l again) w := by
  unfold loadAttempt
  refine Discipline.safe_alone_call fun c r w₁ hc hperform => ?_
  obtain ⟨rfl, rfl⟩ := perform_held hperform
  replace hw : Ready l chat choices w₀ { w with arrived := [] } :=
    ⟨hw.held, hw.durable, hw.kinds, hw.known⟩
  have hcached := hw.covers
  have hcurrent : w.held.map HeldState.state = some held.state := by
    rw [hw.held, hheld]
    rfl
  refine Discipline.safe_alone_call fun c fetched w₂ hc hperform => ?_
  obtain ⟨rfl, rfl⟩ := perform_fetchEscrowEvents hperform
  have hfetched (hcalm : Undisturbed l chat w₀ choices) := hcalm.answers fetched hc
  dsimp only [Prog.bind]
  refine Discipline.safe_bind ?_
  refine Discipline.safe_mono ?_ (safe_seedFromCache hw (hcached.merge hfetched) hfetched)
  rintro ⟨raws, durableTried⟩ w₃ ⟨hraws, hw₃⟩
  dsimp only at hraws ⊢
  rw [hcurrent]
  split_ifs with hempty
  · exact keeps_held hheld hw₃.held
  split
  · exact keeps_held hheld hw₃.held
  · rename_i replayed hpass
    exact safe_settleReplay hheld hw₃ hraws hpass hagain
  · rename_i failure hpass
    refine Discipline.safe_bind ?_
    refine Discipline.safe_mono ?_ (safe_repair hw₃ hraws)
    rintro x w₄ ⟨rfl, hfound⟩
    split
    · exact keeps_held hheld hw₃.held
    · rename_i raws' replayed
      obtain ⟨hraws', hpass'⟩ := hfound raws' replayed rfl
      exact safe_settleReplay hheld hw₃ hraws' hpass' hagain
    · refine Discipline.safe_alone_call fun c _ w₅ hc hperform => ?_
      obtain rfl := perform_demote hperform
      exact ⟨⟨held.state, true⟩, rfl, fun m hm => ⟨m, hm, rfl⟩, Or.inl rfl⟩

theorem safe_loadEscrowAttempt (hheld : w₀.held = some held) {retries : ℕ}
    (hw : Ready l chat choices w₀ w) :
    (undividedLoad l choices).Safe (fun _ => Keeps l chat choices w₀ held.state)
      (loadEscrowAttempt l retries) w := by
  induction retries generalizing w with
  | zero =>
    refine safe_loadAttempt hheld hw fun next hnext => ?_
    cases hnext
  | succ retries ih =>
    refine safe_loadAttempt hheld hw fun next hnext w hw => ?_
    obtain rfl := Option.some.inj hnext
    exact ih hw

end Attempts

/-- Whatever a load of a trade meets, the trade that is held after it has every chat message of the
one before, and is that one or the replay of a list with a raw event under every id of its chain,
and of every other event that is still hot.  Unless the replay refused the LOCK of the chain or
ended the trade, its status is one that the earlier status reaches, and when the status is the same,
the chain and the steps on the LOCK are kept. -/
theorem reload_keeps (l : Loader) (chat : String → Bool) {w w' : TradeWorld} {held : HeldState}
    (hheld : w.held = some held) {choices : List TradeChoice} {r : LoadResult}
    (hrun : (loadEscrow l).alone (P := tradePlatform l.host) w choices = some (r, w')) :
    Keeps l chat choices w held.state w' := by
  have hw : Ready l chat choices w w := {
    held := rfl
    durable := rfl
    kinds := fun hcalm => hcalm.hot
    known := fun _ e he _ => ⟨e, he, rfl⟩ }
  exact Prog.alone_of_safe (safe_loadEscrowAttempt hheld hw) (fun _ hc => hc) hrun

/-! ### What a reload loses -/

def earlyCancel : SignedEvent :=
  signedEvent '7' 'a' 1800000009 .cancel (some '0') (.obj [("type", .str "escrow:cancel"),
    ("cancellerRole", .str "seller"), ("cancelledAt", .num 1800000009)])

def premiumNote : SignedEvent :=
  signedEvent '8' 'b' 1800000021 .premium none (.obj [("type", .str "escrow:premium"),
    ("noteEnvelope", .obj [("encryptedFor", .obj [(hexKey 'c', .str "a note")])]),
    ("payerRole", .str "buyer"), ("noteKind", .str "ambient"), ("sentAt", .num 1800000021)])

def premiumTrade : List SignedEvent := disputedTrade.take 3 ++ [premiumNote]

def sampleLoader : Loader where
  host := silentHost
  reader := sampleReader 'b'
  context _ := {}
  creator := none
  escrowId := "sm_sample"
  repairFromCache := false
  fullHistory := false
  userAction := false
  signed e := {
    raw := e.raw
    kind := e.kind.number
    content := ((premiumTrade.find? fun event => event.id = e.id).map SignedEvent.content).getD
      ⟨"", .error (.error "Unexpected end of JSON input")⟩ }
  signed_raw _ := rfl

def coldWorld (replayed : Replayed) : TradeWorld where
  held := some ⟨replayed.state, false⟩
  hot := none

/-- A load of a trade that is held but no longer hot, with one answer of the relays to its
cursor. -/
def reloads (events answer : List SignedEvent) : Option (EscrowState × EscrowState) := do
  let replayed ← (runReplay silentHost (sampleReader 'b') (fun _ => {}) none false events).toOption
  let since ← escrowDeltaSince (cursorEvents (some replayed.state)
    (chainRaws sampleLoader (some replayed.state)))
  if answer.all fun e => since ≤ e.raw.createdAt then
    let outcome ← (loadEscrow sampleLoader).alone (P := tradePlatform silentHost)
      (coldWorld replayed) [.done, .answer answer, .done]
    outcome.2.held.map fun held => (replayed.state, held.state)
  else none

theorem reloads_spec {events answer : List SignedEvent} {s s' : EscrowState}
    (h : reloads events answer = some (s, s')) :
    ∃ w w' held' r, w.held = some ⟨s, false⟩ ∧ w'.held = some held' ∧ held'.state = s' ∧
      (loadEscrow sampleLoader).alone (P := tradePlatform silentHost) w
        [.done, .answer answer, .done] = some (r, w') := by
  unfold reloads at h
  simp only [bind, Option.bind_eq_some_iff] at h
  obtain ⟨replayed, -, since, -, h⟩ := h
  split_ifs at h
  obtain ⟨⟨r, w'⟩, hrun, h⟩ := Option.bind_eq_some_iff.mp h
  obtain ⟨held', hheld, h⟩ := Option.map_eq_some_iff.mp h
  obtain ⟨rfl, rfl⟩ := Prod.mk.inj h
  exact ⟨coldWorld replayed, w', held', r, rfl, hheld, rfl, hrun⟩

/-- A cancellation that the cursor still lets through takes a JOIN out of the chain though no LOCK
was ever made; and a premium note whose raw event was evicted is gone after a load that brought
nothing. -/
theorem reload_shrinks :
    (∃ s s', reloads (disputedTrade.take 2) [earlyCancel] = some (s, s') ∧ s.hasLock = false ∧
      ∃ e ∈ s.eventChain, s'.hasEvent e.id = false) ∧
    ∃ s s', reloads premiumTrade [] = some (s, s') ∧ s'.status = s.status ∧
      ∃ e ∈ s.premiumNotes, ∀ e' ∈ s'.premiumNotes, e'.id ≠ e.id := by
  have hcancel : (reloads (disputedTrade.take 2) [earlyCancel]).any (fun x =>
      !x.1.hasLock && x.1.eventChain.any fun e => !x.2.hasEvent e.id) = true := by
    decide +kernel
  have hpremium : (reloads premiumTrade []).any (fun x => x.2.status = x.1.status
      && x.1.premiumNotes.any fun e => x.2.premiumNotes.all fun e' => e'.id ≠ e.id) = true := by
    decide +kernel
  constructor
  · obtain ⟨⟨s, s'⟩, hrun, h⟩ := (Option.any_eq_true _ _).mp hcancel
    rw [Bool.and_eq_true, Bool.not_eq_true'] at h
    obtain ⟨e, he, hlost⟩ := List.any_eq_true.mp h.2
    exact ⟨s, s', hrun, h.1, e, he, by simpa using hlost⟩
  · obtain ⟨⟨s, s'⟩, hrun, h⟩ := (Option.any_eq_true _ _).mp hpremium
    rw [Bool.and_eq_true, decide_eq_true_eq] at h
    obtain ⟨e, he, hlost⟩ := List.any_eq_true.mp h.2
    refine ⟨s, s', hrun, h.1, e, he, fun e' he' => ?_⟩
    simpa using List.all_eq_true.mp hlost e' he'

/-- The buyer's load after which the premium is gone keeps what it promises. -/
theorem reload_keeps_sample : ∃ s w w' held' r, w.held = some ⟨s, false⟩ ∧ s.status = .locked ∧
    w'.held = some held' ∧ held'.state.status = .locked ∧
    (loadEscrow sampleLoader).alone (P := tradePlatform silentHost) w [.done, .answer [], .done] =
      some (r, w') ∧ Keeps sampleLoader (fun _ => false) [.done, .answer [], .done] w s w' := by
  have hrun : (reloads premiumTrade []).any (fun x => x.1.status = .locked
      && x.2.status = .locked) = true := by
    decide +kernel
  obtain ⟨⟨s, s'⟩, hreloads, h⟩ := (Option.any_eq_true _ _).mp hrun
  rw [Bool.and_eq_true, decide_eq_true_eq, decide_eq_true_eq] at h
  obtain ⟨w, w', held', r, hheld, hheld', rfl, hrun⟩ := reloads_spec hreloads
  exact ⟨s, w, w', held', r, hheld, h.1, hheld', h.2, hrun,
    reload_keeps sampleLoader (fun _ => false) hheld hrun⟩

end TradeLoad

end ChamaEscrow
