import ChamaEscrow.Replay.LiveFold
import ChamaEscrow.Trade.Totality

/-!
# Replays of a longer read

What becomes of a replay when the read holds more events.  A replay that knows more ids and fewer
claimants judges a rejected event no more strictly (`Verdict`s that pass still pass), so it follows
the other one through their common events.

* `replayStep_follows`: one common event.
* `selectTradeRoot_filter`: events that are no CREATEs do not change the root.
-/

namespace ChamaEscrow

open Js Library

variable {host : Host} {creator : Option String} {s : EscrowState} {e : ParsedEscrowEvent}
  {ctx ctx' : ReplayContext} {t t' u : ReplayProgress}

/-! ### Following a replay -/

/-- A context that knows more ids.  No LOCK was withdrawn in either. -/
structure Widens (ctx ctx' : ReplayContext) : Prop where
  seatSeekers : ctx'.seatSeekers = ctx.seatSeekers
  availableIds : ctx.availableIds ⊆ ctx'.availableIds
  withdrawnIds : ctx.withdrawnIds = [] ∧ ctx'.withdrawnIds = []

/-- A progress with the same state and fewer claimants.  Neither skipped an event about a withdrawn
LOCK. -/
structure Follows (t u : ReplayProgress) : Prop where
  state : u.state = t.state
  claimants : u.claimants ⊆ t.claimants
  skipped : t.withdrawnSkipped = [] ∧ u.withdrawnSkipped = []

def Verdict.passes : Verdict → Bool
  | .fail => false
  | _ => true

theorem Widens.repliesWithin (h : Widens ctx ctx') (hin : repliesWithin ctx e = true) :
    repliesWithin ctx' e = true := by
  unfold ChamaEscrow.repliesWithin at hin ⊢
  obtain ⟨id, hid, hmem⟩ := (Option.any_eq_true _ _).mp hin
  rw [decide_eq_true_eq] at hmem
  exact (Option.any_eq_true _ _).mpr ⟨id, hid, decide_eq_true (h.availableIds hmem)⟩

theorem Widens.repliesOutside (h : Widens ctx ctx') (hout : repliesOutside ctx' e = true) :
    repliesOutside ctx e = true := by
  unfold ChamaEscrow.repliesOutside at hout ⊢
  obtain ⟨id, hid, hmem⟩ := (Option.any_eq_true _ _).mp hout
  rw [decide_eq_true_eq] at hmem
  exact (Option.any_eq_true _ _).mpr
    ⟨id, hid, decide_eq_true fun hin => hmem (h.availableIds hin)⟩

/-! ### Verdicts -/

theorem replayAuthorEntitled_ok (h : KeyPools s) (e : ParsedEscrowEvent) :
    ∃ entitled, replayAuthorEntitled s e = .ok entitled := by
  obtain ⟨place, hplace⟩ := h.arbiterVotePriority_ok e.pubkey
  unfold replayAuthorEntitled
  dsimp only
  by_cases hopen : (!s.hasLock && presupposesLock e.kind) = true
  · exact ⟨true, if_pos hopen⟩
  rw [if_neg hopen]
  split
  · split <;> exact ⟨_, rfl⟩
  · exact ⟨_, rfl⟩
  · split_ifs <;> simp [hplace]
  · split_ifs <;> simp [hplace]
  all_goals exact ⟨_, rfl⟩

theorem isEntitled_follows (hctx : Widens ctx ctx') (hfollows : Follows t u) (hs : KeyPools s)
    {entitled : Bool} (h : isEntitled ctx t.claimants s e = .ok entitled) :
    ∃ entitled', isEntitled ctx' u.claimants s e = .ok entitled' ∧
      (entitled' = true → entitled = true) := by
  obtain ⟨held, hheld⟩ := replayAuthorEntitled_ok hs e
  unfold isEntitled at h ⊢
  dsimp only at h ⊢
  rw [hctx.seatSeekers]
  by_cases hclaims : e.pubkey ∈ t.claimants
  · rw [if_pos hclaims] at h
    obtain rfl := Except.ok.inj h
    split_ifs
    all_goals first | exact ⟨true, rfl, fun _ => rfl⟩ | exact ⟨held, hheld, fun _ => rfl⟩
  rw [if_neg hclaims] at h
  rw [if_neg fun hclaims' => hclaims (hfollows.claimants hclaims')]
  by_cases hout : (movesFunds e.kind && repliesOutside ctx' e) = true
  · have hout' : (movesFunds e.kind && repliesOutside ctx e) = true := by
      rw [Bool.and_eq_true] at hout ⊢
      exact ⟨hout.1, hctx.repliesOutside hout.2⟩
    rw [if_pos hout'] at h
    rw [if_pos hout]
    exact ⟨entitled, h, id⟩
  · rw [if_neg hout]
    split_ifs at h ⊢
    · exact ⟨entitled, h, id⟩
    · obtain rfl := Except.ok.inj h
      exact ⟨held, hheld, fun _ => rfl⟩
    · exact ⟨entitled, h, id⟩

variable {code : ErrorCode}

theorem isCancelledBeforeLock_follows (hctx : Widens ctx ctx') (hs : KeyPools s)
    {cancelled : Bool} (h : isCancelledBeforeLock ctx s e code = .ok cancelled) :
    ∃ cancelled', isCancelledBeforeLock ctx' s e code = .ok cancelled' ∧
      (cancelled = true → cancelled' = true) := by
  obtain ⟨held, hheld⟩ := replayAuthorEntitled_ok hs e
  unfold isCancelledBeforeLock at h ⊢
  cases hp : e.payload with
  | lock p =>
    rw [hp] at h
    dsimp only at h ⊢
    split_ifs at h ⊢ with hrefused
    · rw [hheld, ok_bind, pure_eq_ok] at h
      rw [hheld, ok_bind]
      refine ⟨_, rfl, fun hyes => ?_⟩
      rw [← h] at hyes
      simp only [Bool.and_eq_true] at hyes ⊢
      exact ⟨⟨hyes.1.1, hctx.repliesWithin hyes.1.2⟩, hyes.2⟩
    · exact ⟨cancelled, h, id⟩
  | _ =>
    rw [hp] at h
    exact ⟨cancelled, h, id⟩

theorem isLapsedOrder_follows (hctx : Widens ctx ctx')
    (h : isLapsedOrder ctx s e code = true) : isLapsedOrder ctx' s e code = true := by
  unfold isLapsedOrder at h ⊢
  cases hp : e.payload with
  | lock p =>
    rw [hp] at h
    simp only [Bool.and_eq_true] at h ⊢
    exact ⟨h.1, hctx.repliesWithin h.2⟩
  | _ =>
    rw [hp] at h
    cases h

/-- Without entitlement nothing but a rejected money transition could end a replay. -/
theorem resolveVerdict_passes (p : ResolvePayload) (code : ErrorCode) :
    (resolveVerdict s p code false).passes = true := by
  unfold resolveVerdict
  split_ifs <;> first | rfl | contradiction

theorem resolveVerdict_ne (p : ResolvePayload) (code : ErrorCode) (entitled : Bool) :
    resolveVerdict s p code entitled ≠ .skipWithdrawn := by
  unfold resolveVerdict
  split_ifs <;> simp

theorem advisoryVerdict_passes (code : ErrorCode) :
    (advisoryVerdict s e code false).passes = true := by
  unfold advisoryVerdict
  split_ifs with _ _ _ _ _ _ _ hstrict
  all_goals first | rfl | exact absurd (Or.inl rfl) hstrict

theorem advisoryVerdict_ne (code : ErrorCode) (entitled : Bool) :
    advisoryVerdict s e code entitled ≠ .skipWithdrawn := by
  unfold advisoryVerdict
  split_ifs <;> simp

theorem isAboutWithdrawn_nil (hctx : ctx.withdrawnIds = []) (code : ErrorCode) :
    isAboutWithdrawn ctx [] s e code = false := by
  unfold isAboutWithdrawn
  rw [hctx]
  cases truthyKey e.prevEventId <;> simp

def strictVerdict (state : EscrowState) (event : ParsedEscrowEvent) (code : ErrorCode)
    (entitled : Bool) : Verdict :=
  if movesFunds event.kind then if entitled then .fail else .skip false
  else
    match event.payload with
    | .resolve p => resolveVerdict state p code entitled
    | _ => advisoryVerdict state event code entitled

theorem strictVerdict_passes {entitled entitled' : Bool} (hle : entitled' = true → entitled = true)
    (h : (strictVerdict s e code entitled).passes = true) :
    (strictVerdict s e code entitled').passes = true := by
  cases hentitled : entitled' with
  | true =>
    rw [hle hentitled] at h
    exact h
  | false =>
    unfold strictVerdict
    by_cases hfunds : movesFunds e.kind = true
    · rw [if_pos hfunds]
      rfl
    · rw [if_neg hfunds]
      split
      · exact resolveVerdict_passes _ code
      · exact advisoryVerdict_passes code

theorem strictVerdict_ne (code : ErrorCode) (entitled : Bool) :
    strictVerdict s e code entitled ≠ .skipWithdrawn := by
  unfold strictVerdict
  split_ifs
  · simp
  · simp
  · split
    · exact resolveVerdict_ne _ code entitled
    · exact advisoryVerdict_ne code entitled

theorem verdict_eq (hctx : ctx.withdrawnIds = []) (ht : t.withdrawnSkipped = [])
    (error : ValidationError) : verdict ctx t s e error = (do
      let entitled ← isEntitled ctx t.claimants s e
      let cancelled ← isCancelledBeforeLock ctx s e error.code
      if cancelled then
        return .rejectLock .cancelledBeforeLock
          "The initiator cancelled before this lock; its notes did not enter escrow"
      else if isLapsedOrder ctx s e error.code then
        return .rejectLock (.rejected error.code) error.message
      else if error.code = .expiryNotInTrade ∧ s.hasLock then return .skip false
      else if redundantOnchainLock s e
          ∧ (error.code = .invalidState ∨ error.code = .terminalState) then return .skip true
      else return strictVerdict s e error.code entitled) := by
  unfold verdict strictVerdict
  rw [ht]
  simp only [isAboutWithdrawn_nil hctx, Bool.false_eq_true, if_false]
  congr 1
  funext entitled
  congr 1
  funext cancelled
  split_ifs <;> first | rfl | cases e.payload <;> rfl

variable {error : ValidationError}

theorem verdict_follows (hctx : Widens ctx ctx') (hfollows : Follows t u) (hs : KeyPools s)
    {d : Verdict} (h : verdict ctx t s e error = .ok d)
    (hd : d.passes = true) : d ≠ .skipWithdrawn ∧ ∃ d', verdict ctx' u s e error = .ok d' ∧
      d'.passes = true ∧ d' ≠ .skipWithdrawn := by
  rw [verdict_eq hctx.withdrawnIds.1 hfollows.skipped.1] at h
  rw [verdict_eq hctx.withdrawnIds.2 hfollows.skipped.2]
  simp only [bind_eq_ok] at h
  obtain ⟨entitled, hentitled, cancelled, hcancelled, h⟩ := h
  obtain ⟨entitled', hentitled', hle⟩ := isEntitled_follows hctx hfollows hs hentitled
  obtain ⟨cancelled', hcancelled', hforgiven⟩ := isCancelledBeforeLock_follows hctx hs hcancelled
  rw [hentitled', ok_bind, hcancelled', ok_bind]
  cases cancelled' with
  | true =>
    refine ⟨?_, _, rfl, rfl, by simp⟩
    split_ifs at h <;> rw [pure_eq_ok] at h <;> subst h
    all_goals first | exact strictVerdict_ne _ _ | simp
  | false =>
    have hnot : cancelled = false := by
      by_contra hyes
      exact absurd (hforgiven (by simpa using hyes)) (by simp)
    rw [hnot] at h
    simp only [Bool.false_eq_true, if_false] at h ⊢
    by_cases hlapsed : isLapsedOrder ctx' s e error.code = true
    · rw [if_pos hlapsed]
      refine ⟨?_, _, rfl, rfl, by simp⟩
      split_ifs at h <;> rw [pure_eq_ok] at h <;> subst h
      all_goals first | exact strictVerdict_ne _ _ | simp
    · rw [if_neg fun hbefore => hlapsed (isLapsedOrder_follows hctx hbefore)] at h
      rw [if_neg hlapsed]
      split_ifs at h ⊢ <;> rw [pure_eq_ok] at h <;> subst h
      · exact ⟨by simp, _, rfl, rfl, by simp⟩
      · exact ⟨by simp, _, rfl, rfl, by simp⟩
      · exact ⟨strictVerdict_ne _ _, _, rfl, strictVerdict_passes hle hd, strictVerdict_ne _ _⟩

theorem isEntitled_ok (ctx : ReplayContext) (e : ParsedEscrowEvent) (hs : KeyPools s)
    (claimants : List String) :
    ∃ entitled, isEntitled ctx claimants s e = .ok entitled := by
  obtain ⟨held, hheld⟩ := replayAuthorEntitled_ok hs e
  unfold isEntitled
  dsimp only
  split_ifs
  all_goals first | exact ⟨true, rfl⟩ | exact ⟨held, hheld⟩

theorem isCancelledBeforeLock_ok (ctx : ReplayContext) (e : ParsedEscrowEvent) (hs : KeyPools s)
    (code : ErrorCode) :
    ∃ cancelled, isCancelledBeforeLock ctx s e code = .ok cancelled := by
  obtain ⟨held, hheld⟩ := replayAuthorEntitled_ok hs e
  unfold isCancelledBeforeLock
  split
  · split_ifs
    · rw [hheld, ok_bind]
      exact ⟨_, rfl⟩
    · exact ⟨false, rfl⟩
  · exact ⟨false, rfl⟩

theorem verdict_passes (hctx : ctx.withdrawnIds = []) (ht : t.withdrawnSkipped = [])
    (hs : KeyPools s)
    (hstrict : ∀ entitled, (strictVerdict s e error.code entitled).passes = true) :
    ∃ d, verdict ctx t s e error = .ok d ∧ d.passes = true ∧ d ≠ .skipWithdrawn := by
  obtain ⟨entitled, hentitled⟩ := isEntitled_ok ctx e hs t.claimants
  obtain ⟨cancelled, hcancelled⟩ := isCancelledBeforeLock_ok ctx e hs error.code
  rw [verdict_eq hctx ht, hentitled, ok_bind, hcancelled, ok_bind]
  split_ifs
  · exact ⟨_, rfl, rfl, by simp⟩
  · exact ⟨_, rfl, rfl, by simp⟩
  · exact ⟨_, rfl, rfl, by simp⟩
  · exact ⟨_, rfl, rfl, by simp⟩
  · exact ⟨_, rfl, hstrict entitled, strictVerdict_ne _ _⟩

/-! ### Steps -/

structure Skips (t t' : ReplayProgress) (e : ParsedEscrowEvent) (error : ValidationError) :
    Prop where
  state : t'.state = t.state
  claimants : t'.claimants = claimantsAfter t.claimants e error
  skipped : t'.withdrawnSkipped = t.withdrawnSkipped

theorem skips_of_verdict {d : Verdict}
    (h : verdict ctx t s e error = .ok d) (hpass : d.passes = true) (hne : d ≠ .skipWithdrawn) :
    ∃ t', skipRejected ctx t s e error = .ok t' ∧ Skips t t' e error := by
  unfold skipRejected
  rw [h]
  cases d with
  | fail => cases hpass
  | skip benign => exact ⟨_, rfl, rfl, rfl, rfl⟩
  | skipWithdrawn => exact absurd rfl hne
  | rejectLock code message => exact ⟨_, rfl, rfl, rfl, rfl⟩

theorem verdict_of_skipRejected (h : skipRejected ctx t s e error = .ok t') :
    ∃ d, verdict ctx t s e error = .ok d ∧ d.passes = true := by
  unfold skipRejected at h
  simp only [bind_eq_ok, js_eq_ok] at h
  obtain ⟨d, hd, h⟩ := h
  refine ⟨d, hd, ?_⟩
  cases d with
  | fail => cases h
  | _ => rfl

theorem claimantsAfter_subset {claimants claimants' : List String} (h : claimants' ⊆ claimants)
    (error : ValidationError) :
    claimantsAfter claimants' e error ⊆ claimantsAfter claimants e error := by
  unfold claimantsAfter
  split_ifs
  · exact List.cons_subset_cons _ h
  · exact h

theorem replayStep_follows (hctx : Widens ctx ctx') (hfollows : Follows t u)
    (hpools : ∀ s, t.state = some s → KeyPools s) (h : replayStep host ctx t e = .ok t') :
    ∃ u', replayStep host ctx' u e = .ok u' ∧ Follows t' u' := by
  unfold replayStep at h ⊢
  rw [hfollows.state]
  cases happly : applyEvent host t.state e with
  | ok next =>
    rw [happly] at h
    dsimp only at h ⊢
    simp only [acceptEvent, bind_eq_ok, guardErr_eq_ok, pure_eq_ok] at h ⊢
    obtain ⟨-, hin, rfl⟩ := h
    refine ⟨_, ⟨(), fun hout => hin ?_, rfl⟩, rfl, hfollows.claimants, hfollows.skipped⟩
    exact ⟨hout.1, hctx.repliesOutside hout.2.1, hout.2.2⟩
  | error failure =>
    rw [happly] at h
    cases failure with
    | throws error => cases h
    | reject error =>
      dsimp only at h ⊢
      cases hstate : t.state with
      | none =>
        rw [hstate] at h
        cases h
      | some s =>
        rw [hstate] at h
        dsimp only at h ⊢
        obtain ⟨d, hd, hpass⟩ := verdict_of_skipRejected h
        obtain ⟨hne, d', hd', hpass', hne'⟩ :=
          verdict_follows hctx hfollows (hpools s hstate) hd hpass
        obtain ⟨t₁, ht₁, hskips⟩ := skips_of_verdict hd hpass hne
        obtain rfl : t' = t₁ := Except.ok.inj (h.symm.trans ht₁)
        obtain ⟨u', hu', hskips'⟩ := skips_of_verdict hd' hpass' hne'
        refine ⟨u', hu', ?_, ?_, hskips.skipped.trans hfollows.skipped.1,
          hskips'.skipped.trans hfollows.skipped.2⟩
        · rw [hskips'.state, hskips.state, hfollows.state]
        · rw [hskips'.claimants, hskips.claimants]
          exact claimantsAfter_subset hfollows.claimants error

/-! ### The root of a longer read -/

variable {check : ParsedEscrowEvent → Except JsError Bool}

theorem filterEvents_filter {keep : ParsedEscrowEvent → Bool} {events kept : List ParsedEscrowEvent}
    (h : filterEvents check events = .ok kept) :
    filterEvents check (events.filter keep) = .ok (kept.filter keep) := by
  induction events generalizing kept with
  | nil =>
    obtain rfl := Except.ok.inj h
    rfl
  | cons e rest ih =>
    simp only [filterEvents, bind_eq_ok, pure_eq_ok] at h
    obtain ⟨yes, hyes, later, hlater, rfl⟩ := h
    have hrest := ih hlater
    by_cases hkeep : keep e = true
    · rw [List.filter_cons_of_pos hkeep, filterEvents, hyes, ok_bind, hrest, ok_bind]
      cases yes <;> simp [hkeep, pure, Except.pure]
    · rw [List.filter_cons_of_neg hkeep, hrest]
      cases yes <;> simp [hkeep]

def RootSelection.only (rooted : RootSelection) (keep : ParsedEscrowEvent → Bool) :
    RootSelection where
  events := rooted.events.filter keep
  ignored := rooted.ignored

theorem selectTradeRoot_filter {keep : ParsedEscrowEvent → Bool}
    (hkeep : ∀ e, isCreate e = true → keep e = true) (events : List ParsedEscrowEvent) :
    selectTradeRoot host (events.filter keep) creator =
      (fun rooted => rooted.only keep) <$> selectTradeRoot host events creator := by
  have hcreates : (events.filter keep).filter isCreate = events.filter isCreate := by
    rw [List.filter_filter]
    refine List.filter_congr fun e _ => ?_
    cases hcreate : isCreate e with
    | true => simp [hkeep e hcreate]
    | false => simp
  have hcomm (p : ParsedEscrowEvent → Bool) :
      (events.filter keep).filter p = (events.filter p).filter keep := by
    rw [List.filter_filter, List.filter_filter]
    exact List.filter_congr fun e _ => Bool.and_comm _ _
  have hcreator (creates : List ParsedEscrowEvent) :
      rootAtCreator (events.filter keep) creates creator =
        (fun rooted => rooted.only keep) <$> rootAtCreator events creates creator := by
    unfold rootAtCreator rejectIf
    split
    · split_ifs
      · rfl
      · simp only [bind, Except.bind, pure, Except.pure, Functor.map, Except.map, hcomm,
          RootSelection.only]
    · split_ifs <;> rfl
  unfold selectTradeRoot
  dsimp only
  rw [hcreates]
  split_ifs with hnone
  · rfl
  cases hvalid : filterEvents (isValidRound host) (events.filter isCreate) with
  | error error => rfl
  | ok valid =>
    rw [show (js (.ok valid) : Step _) = .ok valid from rfl, ok_bind, ok_bind]
    split_ifs with hempty
    · unfold rejectIf
      split_ifs
      · rfl
      · exact hcreator _
    · have hsorted : (valid.insertionSort fun a b => earlier a b = true).filter keep =
          valid.insertionSort fun a b => earlier a b = true := by
        refine List.filter_eq_self.mpr fun e he => hkeep e ?_
        exact (List.mem_filter.mp (filterEvents_subset hvalid
          ((List.mem_insertionSort _).mp he))).2
      simp only [rootAtRounds, RootSelection.only, Functor.map, Except.map, pure, Except.pure,
        List.filter_append, hsorted, hcomm]

theorem filterEvents_sound
    {events kept : List ParsedEscrowEvent} (h : filterEvents check events = .ok kept)
    (he : e ∈ kept) : check e = .ok true := by
  induction events generalizing kept with
  | nil =>
    cases h
    cases he
  | cons a rest ih =>
    simp only [filterEvents, bind_eq_ok, pure_eq_ok] at h
    obtain ⟨yes, hyes, later, hlater, rfl⟩ := h
    split_ifs at he with hkeep
    · rcases List.mem_cons.mp he with rfl | he
      · rw [hyes, hkeep]
      · exact ih hlater he
    · exact ih hlater he

theorem isRotationRound_of_isValidRound (h : isValidRound host e = .ok true) :
    isRotationRound e = true := by
  unfold isValidRound at h
  split at h
  · split_ifs at h with hround
    · exact hround
    · cases h
  · cases h

variable {root : ParsedEscrowEvent}

variable {rest ignored : List ParsedEscrowEvent}

theorem selectTradeRoot_cases {events : List ParsedEscrowEvent}
    (h : selectTradeRoot host events creator = .ok ⟨root :: rest, ignored⟩)
    (hcreate : isCreate root = true) (hplain : isRotationRound root = false) :
    filterEvents (isValidRound host) (events.filter isCreate) = .ok [] ∧
      rootAtCreator events (events.filter isCreate) creator = .ok ⟨root :: rest, ignored⟩ := by
  have hroot : root ∈ events := selectTradeRoot_subset h List.mem_cons_self
  unfold selectTradeRoot at h
  dsimp only at h
  split_ifs at h with hnone
  · rw [List.isEmpty_iff, List.filter_eq_nil_iff] at hnone
    exact absurd hcreate (hnone root hroot)
  simp only [bind_eq_ok, js_eq_ok] at h
  obtain ⟨valid, hvalid, h⟩ := h
  split_ifs at h with hempty
  · simp only [bind_eq_ok] at h
    obtain ⟨-, -, h⟩ := h
    rw [List.isEmpty_iff.mp hempty] at hvalid
    exact ⟨hvalid, h⟩
  · simp only [pure_eq_ok, rootAtRounds, RootSelection.mk.injEq] at h
    cases hsorted : valid.insertionSort fun a b => earlier a b = true with
    | nil =>
      have hlength := congrArg List.length hsorted
      rw [List.length_insertionSort, List.length_nil, List.length_eq_zero_iff] at hlength
      simp [hlength] at hempty
    | cons first later =>
      rw [hsorted, List.cons_append, List.cons.injEq] at h
      obtain ⟨⟨rfl, -⟩, -⟩ := h
      have hmem : first ∈ valid :=
        (List.mem_insertionSort _).mp (hsorted ▸ List.mem_cons_self)
      rw [isRotationRound_of_isValidRound (filterEvents_sound hvalid hmem)] at hplain
      cases hplain

variable {rooted : RootSelection}

theorem rootAtCreator_again {events : List ParsedEscrowEvent}
    (h : rootAtCreator events (events.filter isCreate) creator = .ok rooted)
    (hroot : ∃ root ∈ rooted.events, isCreate root = true) :
    (∃ keep, rooted.events = events.filter keep) ∧
      ∃ ignored, rootAtCreator rooted.events (rooted.events.filter isCreate) creator =
        .ok ⟨rooted.events, ignored⟩ := by
  obtain ⟨root, hmem, hcreate⟩ := hroot
  unfold rootAtCreator at h ⊢
  split at h
  · rename_i by_ _
    simp only [bind_eq_ok, pure_eq_ok] at h
    obtain ⟨-, -, rfl⟩ := h
    dsimp only at hmem ⊢
    refine ⟨⟨_, rfl⟩, ?_⟩
    generalize hkept : events.filter (fun e => !(isCreate e && toLowerCase e.pubkey ≠ by_)) = kept
    rw [hkept] at hmem
    have hown : ∀ e ∈ kept, isCreate e = true → toLowerCase e.pubkey = by_ := by
      intro e he hyes
      have hkeep := (List.mem_filter.mp (hkept ▸ he : e ∈ events.filter _)).2
      rw [hyes, Bool.true_and, Bool.not_eq_true', decide_eq_false_iff_not, not_not] at hkeep
      exact hkeep
    have hforeign : (kept.filter isCreate).filter (fun e => toLowerCase e.pubkey ≠ by_) = [] := by
      rw [List.filter_eq_nil_iff]
      intro e he
      obtain ⟨he, hyes⟩ := List.mem_filter.mp he
      simp [hown e he hyes]
    have hsome : 0 < (kept.filter isCreate).length :=
      List.length_pos_of_mem (List.mem_filter.mpr ⟨hmem, hcreate⟩)
    rw [hforeign, rejectIf, if_neg (by rw [List.length_nil]; omega)]
    refine ⟨[], ?_⟩
    have hsame : kept.filter (fun e => !(isCreate e && toLowerCase e.pubkey ≠ by_)) = kept := by
      rw [← hkept, List.filter_filter]
      simp
    rw [hsame]
    rfl
  · simp only [bind_eq_ok, pure_eq_ok] at h
    obtain ⟨_, hone, rfl⟩ := h
    refine ⟨⟨fun _ => true, by simp⟩, [], ?_⟩
    rw [hone]
    rfl

theorem selectTradeRoot_again {events : List ParsedEscrowEvent}
    (h : selectTradeRoot host events creator = .ok ⟨root :: rest, ignored⟩)
    (hcreate : isCreate root = true) (hplain : isRotationRound root = false) :
    ∃ ignored', selectTradeRoot host (root :: rest) creator = .ok ⟨root :: rest, ignored'⟩ := by
  obtain ⟨hvalid, hcreator⟩ := selectTradeRoot_cases h hcreate hplain
  obtain ⟨⟨keep, hkeep⟩, ignored', hagain⟩ :=
    rootAtCreator_again hcreator ⟨root, List.mem_cons_self, hcreate⟩
  dsimp only at hkeep hagain
  have hmem : root ∈ (root :: rest).filter isCreate :=
    List.mem_filter.mpr ⟨List.mem_cons_self, hcreate⟩
  have hsome : ¬ ((root :: rest).filter isCreate).isEmpty = true := by
    rw [List.isEmpty_iff]
    exact List.ne_nil_of_mem hmem
  have hrounds : ¬ ((root :: rest).filter isCreate).all isRotationRound = true := by
    rw [List.all_eq_true]
    exact fun hall => by simp [hall root hmem] at hplain
  -- The CREATEs of the rooted list are some of the read's, so none is a valid round.
  have hnone : filterEvents (isValidRound host) ((root :: rest).filter isCreate) = .ok [] := by
    rw [hkeep, List.filter_filter]
    simp only [Bool.and_comm (isCreate _)]
    rw [← List.filter_filter]
    exact filterEvents_filter hvalid
  refine ⟨ignored', ?_⟩
  unfold selectTradeRoot
  dsimp only
  rw [if_neg hsome, hnone, show (js (.ok []) : Step (List ParsedEscrowEvent)) = .ok [] from rfl,
    ok_bind, if_pos List.isEmpty_nil, rejectIf, if_neg hrounds]
  exact hagain

theorem selectTradeRoot_rest {events : List ParsedEscrowEvent}
    (h : selectTradeRoot host events creator = .ok rooted) :
    rooted.events.filter (fun e => !isCreate e) = events.filter fun e => !isCreate e := by
  unfold selectTradeRoot at h
  dsimp only at h
  split_ifs at h with hnone
  · cases h
    rfl
  simp only [bind_eq_ok, js_eq_ok] at h
  obtain ⟨valid, hvalid, h⟩ := h
  split_ifs at h with hempty
  · simp only [bind_eq_ok] at h
    obtain ⟨-, -, h⟩ := h
    unfold rootAtCreator at h
    split at h <;> simp only [bind_eq_ok, pure_eq_ok] at h <;> obtain ⟨-, -, rfl⟩ := h
    · rw [List.filter_filter]
      refine List.filter_congr fun e _ => ?_
      cases isCreate e <;> simp
    · rfl
  · simp only [pure_eq_ok] at h
    subst h
    unfold rootAtRounds
    have hrounds : (valid.insertionSort fun a b => earlier a b = true).filter
        (fun e => !isCreate e) = [] := by
      rw [List.filter_eq_nil_iff]
      intro e he
      have hcreate := (List.mem_filter.mp (filterEvents_subset hvalid
        ((List.mem_insertionSort _).mp he))).2
      simp [hcreate]
    simp [List.filter_append, hrounds]

/-! ### What the rules read of a read -/

variable {α β : Type*} {keep : α → Bool}

theorem filterMap_filter_of_isSome {f : α → Option β} (h : ∀ a, (f a).isSome → keep a = true)
    (l : List α) : (l.filter keep).filterMap f = l.filterMap f := by
  rw [List.filterMap_filter]
  refine List.filterMap_congr fun a _ => ?_
  split_ifs with hkeep
  · rfl
  · exact (Option.not_isSome_iff_eq_none.mp fun hsome => hkeep (h a hsome)).symm

theorem findSome?_filter_of_isSome {f : α → Option β} (h : ∀ a, (f a).isSome → keep a = true)
    (l : List α) : (l.filter keep).findSome? f = l.findSome? f := by
  induction l with
  | nil => rfl
  | cons a l ih =>
    by_cases hkeep : keep a = true
    · rw [List.filter_cons_of_pos hkeep, List.findSome?_cons, List.findSome?_cons, ih]
    · have hnone : f a = none := Option.not_isSome_iff_eq_none.mp fun hsome => hkeep (h a hsome)
      rw [List.filter_cons_of_neg hkeep, ih, List.findSome?_cons, hnone]

theorem filter_filter_of_imp {p : α → Bool} (h : ∀ a, p a = true → keep a = true) (l : List α) :
    (l.filter keep).filter p = l.filter p := by
  rw [List.filter_filter]
  refine List.filter_congr fun a _ => ?_
  cases hp : p a with
  | true => simp [h a hp]
  | false => simp

variable {events : List ParsedEscrowEvent} {keep : ParsedEscrowEvent → Bool}

theorem findLock_filter (h : ∀ e, e.kind = .lock → keep e = true) (id : String) :
    findLock (events.filter keep) id = findLock events id := by
  unfold findLock
  rw [← List.filter_reverse]
  refine findSome?_filter_of_isSome (fun e hsome => h e ?_) _
  rw [ParsedEscrowEvent.kind]
  cases hp : e.payload <;> rw [hp] at hsome <;> first | rfl | cases hsome

theorem lockSteps_filter (h : ∀ e, e.kind = .lockStep → keep e = true) :
    lockSteps (events.filter keep) = lockSteps events := by
  refine filterMap_filter_of_isSome (fun e hsome => h e ?_) _
  rw [ParsedEscrowEvent.kind]
  cases hp : e.payload <;> rw [hp] at hsome <;> first | rfl | cases hsome

theorem acceptors_filter (hlock : ∀ e, e.kind = .lock → keep e = true)
    (haccept : ∀ e p, e.payload = .lockStep p → p.step = .accept → keep e = true)
    (setAside : List String) :
    acceptors (events.filter keep) setAside = acceptors events setAside := by
  unfold acceptors lockSteps
  simp only [findLock_filter hlock]
  rw [List.filterMap_filterMap, List.filterMap_filterMap]
  refine filterMap_filter_of_isSome (fun e hsome => ?_) _
  cases hp : e.payload with
  | lockStep p =>
    rw [hp] at hsome
    dsimp only [Option.bind_some] at hsome
    split_ifs at hsome with hstep
    · exact haccept e p hp hstep.1
    · cases hsome
  | _ =>
    rw [hp] at hsome
    cases hsome

theorem withdrawnLocks_of_none {released : List String}
    {steps : List (ParsedEscrowEvent × LockStepPayload)} {found : RefusedSteps}
    (h : ∀ step ∈ steps, withdrawnBy events released found.setAside step.1 step.2 = none) :
    withdrawnLocks events released steps found = found := by
  induction steps with
  | nil => rfl
  | cons step rest ih =>
    rw [withdrawnLocks, h step List.mem_cons_self]
    exact ih fun other hother => h other (List.mem_cons_of_mem _ hother)

theorem withdrawnBy_eq_some {released setAside : List String} {p : LockStepPayload}
    {lock : ParsedEscrowEvent} (h : withdrawnBy events released setAside e p = some lock) :
    withdrawnBy events [] [] e p = some lock ∧ lock.id ∉ released := by
  unfold withdrawnBy at h ⊢
  split_ifs at h ⊢
  split at h
  · split_ifs at h with htaken
    obtain rfl := Option.some.inj h
    simp [htaken]
  · cases h

/-- The rules take out of a read the CANCELs of those who accepted. -/
def pinsOnly (root : ParsedEscrowEvent) (events : List ParsedEscrowEvent) : RefusedSteps :=
  if gatesSteps root then refusedLockSteps events none else .empty

theorem refusedSteps_of_none (ids : Option (List String))
    {released : List ParsedEscrowEvent → Step (Option (List String))}
    (hreleased : gatesSteps root = true → released events = .ok ids)
    (h : ∀ known, ids = some known → ∀ step ∈ lockSteps events,
      withdrawnBy events known [] step.1 step.2 = none) :
    refusedSteps released root events = .ok (pinsOnly root events) := by
  unfold refusedSteps pinsOnly
  split_ifs with hgated
  · rw [hreleased hgated]
    cases ids with
    | none => rfl
    | some known =>
      have : withdrawnLocks events known (lockSteps events) .empty = .empty :=
        withdrawnLocks_of_none (h known rfl)
      simp only [Functor.map, Except.map, refusedLockSteps, this]
  · rfl

theorem pinsOnly_setAside {id : String}
    (h : id ∈ (pinsOnly root events).setAside) : ∃ e ∈ events, e.kind = .cancel ∧ e.id = id := by
  unfold pinsOnly at h
  split_ifs at h
  · simp only [refusedLockSteps, RefusedSteps.empty, List.nil_append, List.mem_map,
      List.mem_filter, Bool.and_eq_true, decide_eq_true_eq] at h
    obtain ⟨e, ⟨he, hcancel, -⟩, hid⟩ := h
    exact ⟨e, he, hcancel, hid⟩
  · cases h

theorem pinsOnly_withdrawnIds (root : ParsedEscrowEvent) (events : List ParsedEscrowEvent) :
    (pinsOnly root events).setAside.filter (fun id => id ∉
      (pinsOnly root events).pinnedCancels.map ParsedEscrowEvent.id) = [] := by
  unfold pinsOnly
  split_ifs
  · rw [List.filter_eq_nil_iff]
    intro id hid
    exact fun hnot => of_decide_eq_true hnot hid
  · rfl

def IdsIdentify (events : List ParsedEscrowEvent) : Prop :=
  ∀ a ∈ events, ∀ b ∈ events, a.id = b.id → a = b

theorem idsIdentify_of_nodup (h : (events.map ParsedEscrowEvent.id).Nodup) : IdsIdentify events :=
  fun _ ha _ hb hid => List.inj_on_of_nodup_map h ha hb hid

/-! ### Rooted lists -/

theorem lockSteps_rooted (h : selectTradeRoot host events creator = .ok rooted) :
    lockSteps rooted.events = lockSteps events ∧
      ∀ id, findLock rooted.events id = findLock events id := by
  have hrest := selectTradeRoot_rest h
  have hstep (e : ParsedEscrowEvent) (hkind : e.kind = .lockStep) : (!isCreate e) = true := by
    simp [isCreate, hkind]
  have hlock (e : ParsedEscrowEvent) (hkind : e.kind = .lock) : (!isCreate e) = true := by
    simp [isCreate, hkind]
  refine ⟨?_, fun id => ?_⟩
  · rw [← lockSteps_filter hstep, hrest, lockSteps_filter hstep]
  · rw [← findLock_filter hlock, hrest, findLock_filter hlock]

theorem authorsOf_join_rooted (h : selectTradeRoot host events creator = .ok rooted) :
    authorsOf .join rooted.events = authorsOf .join events := by
  have hjoin (e : ParsedEscrowEvent) (hkind : decide (e.kind = .join) = true) :
      (!isCreate e) = true := by
    simp [isCreate, of_decide_eq_true hkind]
  unfold authorsOf
  rw [← filter_filter_of_imp hjoin, selectTradeRoot_rest h, filter_filter_of_imp hjoin]

theorem authorsOf_subset {kind : EscrowEventKind} {es : List ParsedEscrowEvent} (h : es ⊆ events) :
    authorsOf kind es ⊆ authorsOf kind events :=
  List.map_subset _ fun _ he => List.mem_filter.mpr
    ⟨h (List.mem_filter.mp he).1, (List.mem_filter.mp he).2⟩

end ChamaEscrow
