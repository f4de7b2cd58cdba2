import ChamaEscrow.Replay.Insertions
import ChamaEscrow.Trade.RoundLaw
import Mathlib.Data.List.Dedup

/-!
# The root of a replay

Which CREATE roots a trade (`trade-identity.ts`).  An id may carry a tag of its creator's key, a
caller may name the creator, and a round of a sealed rotation belongs to any of its members; a list
whose CREATEs have several authors is refused otherwise.

* `creates_root_trades`: the initiator of a replayed trade is the creator the caller named, or the
  author of a rotation CREATE that the circle law accepts for the trade's id; it carries the tag of
  the id; and CREATEs by other keys, unless the circle law accepts them as rotation rounds, are
  without effect or end the replay.
* `rival_round_reroots`: an earlier CREATE of the same round by another member takes the root.
-/

namespace ChamaEscrow

open Js Library

variable {host : Host} {creator : Option String} {e : ParsedEscrowEvent}
  {events : List ParsedEscrowEvent}

/-! ### Lists with insertions -/

inductive Inserts {α : Type*} (extra : α → Prop) : List α → List α → Prop
  | nil : Inserts extra [] []
  | keep {l l' : List α} (a : α) (rest : Inserts extra l l') : Inserts extra (a :: l) (a :: l')
  | insert {l l' : List α} (a : α) (new : extra a) (rest : Inserts extra l l') :
      Inserts extra l (a :: l')

namespace Inserts

variable {α : Type*} {extra : α → Prop} {l l' : List α}

theorem subset (h : Inserts extra l l') : l ⊆ l' := by
  induction h with
  | nil => exact List.Subset.refl _
  | keep a _ ih => exact List.cons_subset_cons a ih
  | insert a _ _ ih => exact List.subset_cons_of_subset a ih

theorem filter_eq (h : Inserts extra l l') {p : α → Bool} (hp : ∀ a, extra a → p a = false) :
    l'.filter p = l.filter p := by
  induction h with
  | nil => rfl
  | keep a _ ih => rw [List.filter_cons, List.filter_cons, ih]
  | insert a new _ ih => rw [List.filter_cons_of_neg (by simp [hp a new]), ih]

theorem filter (h : Inserts extra l l') (p : α → Bool) :
    Inserts extra (l.filter p) (l'.filter p) := by
  induction h with
  | nil => exact .nil
  | keep a _ ih =>
    rw [List.filter_cons, List.filter_cons]
    split_ifs
    · exact .keep a ih
    · exact ih
  | insert a new _ ih =>
    rw [List.filter_cons]
    split_ifs
    · exact .insert a new ih
    · exact ih

theorem eq_or_exists (h : Inserts extra l l') : l' = l ∨ ∃ a ∈ l', extra a := by
  induction h with
  | nil => exact Or.inl rfl
  | keep a _ ih =>
    rcases ih with rfl | ⟨b, hb, hextra⟩
    · exact Or.inl rfl
    · exact Or.inr ⟨b, List.mem_cons_of_mem a hb, hextra⟩
  | insert a new _ _ => exact Or.inr ⟨a, List.mem_cons_self, new⟩

end Inserts

/-! ### Rounds that the law accepts -/

def AcceptedRound (host : Host) (e : ParsedEscrowEvent) : Prop :=
  isRotationRound e = true ∧ ∃ p, e.payload = .create p ∧
    chamaCreateError host p e.escrowId e.pubkey e.timestamp e.chamaParent e.chamaWitness
      e.chamaCycle (eventIsSim e.raw) = .ok none

theorem isValidRound_iff : isValidRound host e = .ok true ↔ AcceptedRound host e := by
  unfold isValidRound AcceptedRound
  constructor
  · intro h
    split at h
    · rename_i p hp
      split_ifs at h with hround
      · simp only [bind_eq_ok, pure_eq_ok, Option.isNone_iff_eq_none] at h
        obtain ⟨problem, hproblem, rfl⟩ := h
        exact ⟨hround, p, hp, hproblem⟩
      · cases h
    · cases h
  · rintro ⟨hround, p, hp, hproblem⟩
    rw [hp]
    dsimp only
    rw [if_pos hround, hproblem]
    rfl

theorem filterEvents_eq {check : ParsedEscrowEvent → Except JsError Bool}
    {kept : List ParsedEscrowEvent} (h : filterEvents check events = .ok kept) :
    kept = events.filter fun e => (check e).toOption = some true := by
  induction events generalizing kept with
  | nil =>
    cases h
    rfl
  | cons a rest ih =>
    simp only [filterEvents, bind_eq_ok, pure_eq_ok] at h
    obtain ⟨yes, hyes, later, hlater, rfl⟩ := h
    rw [ih hlater, List.filter_cons, hyes]
    cases yes <;> rfl

theorem isCreate_of_isRotationRound (h : isRotationRound e = true) : isCreate e = true := by
  unfold isRotationRound at h
  split at h
  · rename_i p hp
    simp [isCreate, ParsedEscrowEvent.kind, hp, EscrowPayload.kind]
  · cases h

theorem isValidRound_toOption : (isValidRound host e).toOption = some true ↔
    AcceptedRound host e := by
  rw [← isValidRound_iff]
  cases isValidRound host e <;> simp [Except.toOption]

/-! ### The choice of the root -/

def MayRoot (host : Host) (creator : Option String) (events : List ParsedEscrowEvent)
    (e : ParsedEscrowEvent) : Prop :=
  AcceptedRound host e ∨ ((∀ round ∈ events, ¬ AcceptedRound host round) ∧
    ∀ by_, truthyKey (creator.map toLowerCase) = some by_ → toLowerCase e.pubkey = by_)

theorem rootAtCreator_named {rooted : RootSelection} {creates : List ParsedEscrowEvent}
    (h : rootAtCreator events creates creator = .ok rooted) (he : e ∈ rooted.events)
    (hcreate : isCreate e = true) {by_ : String}
    (hnamed : truthyKey (creator.map toLowerCase) = some by_) : toLowerCase e.pubkey = by_ := by
  unfold rootAtCreator at h
  rw [hnamed] at h
  simp only [bind_eq_ok, pure_eq_ok] at h
  obtain ⟨-, -, rfl⟩ := h
  have hkept := (List.mem_filter.mp he).2
  rw [hcreate, Bool.true_and, Bool.not_eq_true', decide_eq_false_iff_not, not_not] at hkept
  exact hkept

theorem selectTradeRoot_mayRoot {rooted : RootSelection}
    (h : selectTradeRoot host events creator = .ok rooted) (he : e ∈ rooted.events)
    (hcreate : isCreate e = true) : MayRoot host creator events e := by
  have hmem : e ∈ events := selectTradeRoot_subset h he
  unfold selectTradeRoot at h
  dsimp only at h
  split_ifs at h with hnone
  · rw [List.isEmpty_iff, List.filter_eq_nil_iff] at hnone
    exact absurd hcreate (hnone e hmem)
  simp only [bind_eq_ok, js_eq_ok] at h
  obtain ⟨valid, hvalid, h⟩ := h
  split_ifs at h with hempty
  · simp only [bind_eq_ok] at h
    obtain ⟨-, -, h⟩ := h
    refine Or.inr ⟨fun round hround haccepted => ?_, fun by_ => rootAtCreator_named h he hcreate⟩
    have hin : round ∈ valid := by
      rw [filterEvents_eq hvalid]
      exact List.mem_filter.mpr ⟨List.mem_filter.mpr
        ⟨hround, isCreate_of_isRotationRound haccepted.1⟩,
        decide_eq_true (isValidRound_toOption.mpr haccepted)⟩
    rw [List.isEmpty_iff.mp hempty] at hin
    cases hin
  · simp only [pure_eq_ok] at h
    subst h
    rcases List.mem_append.mp he with he | he
    · exact Or.inl (isValidRound_iff.mp
        (filterEvents_sound hvalid ((List.mem_insertionSort _).mp he)))
    · have hother := (List.mem_filter.mp he).2
      simp [hcreate] at hother

/-! ### Forged CREATEs -/

/-- A CREATE by another key than the one given, which no sealed rotation accepts. -/
def Forged (host : Host) (owner : String) (e : ParsedEscrowEvent) : Prop :=
  isCreate e = true ∧ toLowerCase e.pubkey ≠ toLowerCase owner ∧ ¬ AcceptedRound host e

theorem one_lt_length_dedup {α : Type*} [DecidableEq α] {l : List α} {a b : α} (ha : a ∈ l)
    (hb : b ∈ l) (hne : a ≠ b) : 1 < l.dedup.length := by
  rw [← List.mem_dedup] at ha hb
  cases hl : l.dedup with
  | nil => simp [hl] at ha
  | cons x rest =>
    cases rest with
    | nil =>
      rw [hl, List.mem_singleton] at ha hb
      exact absurd (ha.trans hb.symm) hne
    | cons y rest => simp

theorem selectTradeRoot_forged {owner : String} {events' : List ParsedEscrowEvent}
    {rooted rooted' : RootSelection} (hadded : Inserts (Forged host owner) events events')
    (h : selectTradeRoot host events creator = .ok rooted)
    (h' : selectTradeRoot host events' creator = .ok rooted')
    (howner : ∃ root ∈ rooted.events, isCreate root = true ∧ root.pubkey = owner) :
    rooted'.events = rooted.events := by
  obtain ⟨root, hroot, hcreate, rfl⟩ := howner
  have hmem : root ∈ events := selectTradeRoot_subset h hroot
  have hmay := selectTradeRoot_mayRoot h hroot hcreate
  have hsome (l : List ParsedEscrowEvent) (hl : root ∈ l) :
      ¬ (l.filter isCreate).isEmpty = true := by
    rw [List.isEmpty_iff]
    exact List.ne_nil_of_mem (List.mem_filter.mpr ⟨hl, hcreate⟩)
  unfold selectTradeRoot at h h'
  dsimp only at h h'
  rw [if_neg (hsome events hmem)] at h
  rw [if_neg (hsome events' (hadded.subset hmem))] at h'
  simp only [bind_eq_ok, js_eq_ok] at h h'
  obtain ⟨valid, hvalid, h⟩ := h
  obtain ⟨valid', hvalid', h'⟩ := h'
  -- No inserted CREATE is a valid round, so the valid rounds are the same.
  have hsame : valid' = valid := by
    rw [filterEvents_eq hvalid, filterEvents_eq hvalid']
    refine (hadded.filter isCreate).filter_eq fun e he => ?_
    rw [decide_eq_false_iff_not, isValidRound_toOption]
    exact he.2.2
  subst hsame
  split_ifs at h h' with hempty
  · simp only [bind_eq_ok] at h h'
    obtain ⟨-, -, h⟩ := h
    obtain ⟨-, -, h'⟩ := h'
    unfold rootAtCreator at h h'
    split at h
    · rename_i by_ hnamed
      rw [hnamed] at h'
      simp only [bind_eq_ok, pure_eq_ok] at h h'
      obtain ⟨-, -, rfl⟩ := h
      obtain ⟨-, -, rfl⟩ := h'
      have hown : toLowerCase root.pubkey = by_ := by
        have hkept := (List.mem_filter.mp hroot).2
        rw [hcreate, Bool.true_and, Bool.not_eq_true', decide_eq_false_iff_not, not_not] at hkept
        exact hkept
      refine hadded.filter_eq fun e he => ?_
      rw [he.1, Bool.true_and, Bool.not_eq_false', decide_eq_true_eq, ← hown]
      exact he.2.1
    · rename_i hnamed
      rw [hnamed] at h'
      simp only [bind_eq_ok, rejectIf_eq_ok, pure_eq_ok] at h h'
      obtain ⟨-, -, rfl⟩ := h
      obtain ⟨-, hone, rfl⟩ := h'
      rcases hadded.eq_or_exists with hequal | ⟨e, he, hforged⟩
      · exact hequal
      -- Two authors are refused.
      · exfalso
        exact hone (one_lt_length_dedup
          (List.mem_map_of_mem (List.mem_filter.mpr ⟨he, hforged.1⟩))
          (List.mem_map_of_mem (List.mem_filter.mpr ⟨hadded.subset hmem, hcreate⟩)) hforged.2.1)
  · simp only [pure_eq_ok] at h h'
    subst h
    subst h'
    unfold rootAtRounds
    dsimp only
    rw [hadded.filter_eq fun e he => by simp [he.1]]

/-! ### Replays -/

variable {taken : RefusedSteps}

theorem replayRooted_starts {es ignored : List ParsedEscrowEvent} {claimants seekers : List String}
    {r : Replayed} (h : replayRooted host claimants seekers ⟨es, ignored⟩ taken = .ok r) :
    ∃ root rest s₀, es.filter (fun e => e.id ∉ taken.setAside) = root :: rest ∧
      Runs host root s₀ rest r := by
  unfold replayRooted at h
  dsimp only at h
  rw [bind_eq_ok] at h
  obtain ⟨t, hloop, hreplayed⟩ := h
  cases hes : es.filter fun e => e.id ∉ taken.setAside with
  | nil =>
    rw [hes] at hloop
    obtain rfl := Except.ok.inj hloop
    cases hreplayed
  | cons root rest =>
    rw [hes] at hloop
    obtain ⟨s₀, t₀, hs₀, ht₀, hrest⟩ := replayLoop_root rfl hloop
    exact ⟨root, rest, s₀, rfl, hs₀,
      Option.some.inj ((replayed_eq_ok hreplayed).symm.trans (replayLoop_live ht₀ hrest))⟩

theorem replayRooted_state {es ignored ignored' : List ParsedEscrowEvent}
    {claimants claimants' seekers seekers' : List String} {r r' : Replayed}
    (h : replayRooted host claimants seekers ⟨es, ignored⟩ taken = .ok r)
    (h' : replayRooted host claimants' seekers' ⟨es, ignored'⟩ taken = .ok r') :
    r'.state = r.state := by
  obtain ⟨root, rest, s₀, hlist, hruns⟩ := replayRooted_starts h
  obtain ⟨root', rest', s₀', hlist', hruns'⟩ := replayRooted_starts h'
  obtain ⟨rfl, rfl⟩ := List.cons.inj (hlist.symm.trans hlist')
  obtain rfl := Except.ok.inj (hruns.start.symm.trans hruns'.start)
  rw [hruns.final, hruns'.final]

/-- The key and the id of a CREATE are those of every state after it. -/
structure Names (root : ParsedEscrowEvent) (s : EscrowState) : Prop where
  create : isCreate root = true
  initiator : s.initiator.pubkey = root.pubkey
  id : s.id = root.escrowId
  tag : creatorMatchesEscrowId root.escrowId root.pubkey = true

theorem Runs.names {root : ParsedEscrowEvent} {s₀ : EscrowState} {es : List ParsedEscrowEvent}
    {r : Replayed} (h : Runs host root s₀ es r) : Names root r.state := by
  obtain ⟨p, hp, hcreate⟩ := (applyEvent_none host).mp h.start
  have hborn := handleCreate_newborn hp hcreate
  have htag : creatorMatchesEscrowId root.escrowId root.pubkey = true := by
    simp only [handleCreate, bind_eq_ok, guardErr_eq_ok, Bool.not_eq_true',
      Bool.not_eq_false] at hcreate
    obtain ⟨-, -, -, -, -, htag, -⟩ := hcreate
    exact htag
  have hterms : r.state.toTradeTerms = s₀.toTradeTerms := by
    rw [h.final]
    exact liveFold_invariant (I := fun s : EscrowState => s.toTradeTerms = s₀.toTradeTerms)
      (fun s e s' hs happly => (applyToState_stepped happly).terms.trans hs) rfl es
  have hinitiator : r.state.initiator = s₀.initiator := congrArg TradeTerms.initiator hterms
  have hid : r.state.id = s₀.id := congrArg TradeTerms.id hterms
  refine ⟨?_, ?_, ?_, htag⟩
  · simp [isCreate, ParsedEscrowEvent.kind, hp, EscrowPayload.kind]
  · rw [hinitiator, hborn.initiator]
  · rw [hid, hborn.id]

theorem ReplaysTo.root {released : List ParsedEscrowEvent → Step (Option (List String))}
    {root : ParsedEscrowEvent} {rest ignored : List ParsedEscrowEvent}
    {r : Replayed} (h : ReplaysTo host creator released events root rest ignored taken r) :
    ∃ first ∈ root :: rest, Names first r.state := by
  obtain ⟨first, later, s₀, hlist, hruns⟩ := replayRooted_starts h.replayed
  exact ⟨first, List.mem_of_mem_filter (hlist ▸ List.mem_cons_self), hruns.names⟩

/-- The key that a replayed trade is rooted at is the creator the caller named, or the author of a
rotation CREATE that the circle law accepts for exactly the trade's id, and it carries the tag of
the id.  CREATEs by other keys that the law does not accept as rotation rounds leave the state or
end the replay. -/
theorem creates_root_trades (host : Host) (creator : Option String)
    (events : List ParsedEscrowEvent) (r : Replayed)
    (h : replayEventChain host events creator = .ok r) :
    creatorMatchesEscrowId r.state.id r.state.initiator.pubkey = true ∧
      (∃ root ∈ events, Names root r.state ∧ MayRoot host creator events root) ∧
      ∀ events', Inserts (Forged host r.state.initiator.pubkey) events events' →
        ∀ r', replayEventChain host events' creator = .ok r' → r'.state = r.state := by
  obtain ⟨root, rest, ignored, taken, hparts⟩ := replayWith_eq_ok.mp h
  obtain ⟨first, hfirst, hnames⟩ := hparts.root
  refine ⟨?_, ⟨first, selectTradeRoot_subset hparts.rooted hfirst, hnames,
    selectTradeRoot_mayRoot hparts.rooted hfirst hnames.create⟩, fun events' hadded r' h' => ?_⟩
  · rw [hnames.id, hnames.initiator]
    exact hnames.tag
  · obtain ⟨root', rest', ignored', taken', hparts'⟩ := replayWith_eq_ok.mp h'
    have hsame := selectTradeRoot_forged hadded hparts.rooted hparts'.rooted
      ⟨first, hfirst, hnames.create, hnames.initiator.symm⟩
    obtain ⟨rfl, rfl⟩ := List.cons.inj hsame
    obtain rfl : taken' = taken := Except.ok.inj (hparts'.refused.symm.trans hparts.refused)
    exact replayRooted_state hparts.replayed hparts'.replayed

/-! ### Two members, and a stranger -/

/-- The second round of the sample circle, opened by a member. -/
def roundCreate (id author : Char) (time : ℕ) : ParsedEscrowEvent :=
  { sampleEvent id author time (.create {
      description := "circle"
      amountMsats := 1000000
      category := "chama"
      chamaCircle := .terms {
        shareMsats := 1000000
        seatThreshold := 3
        seatCap := some 3
        unlisted := true
        pot := .rotationV2
        fillDeadlineSec := 1800010800
        roundEndSec := 1800014400
        roundIndex := 2
        prevCircleId := some "sm_circle" }
      mintUrl := "https://mint"
      platformFeeBps := 0
      platformFeePubkey := hexKey 'e'
      expirySeconds := .ofInt (1800014400 - time)
      communityArbiters := .arr [.str (hexKey 'f')]
      createdAt := .ofInt time }) with
    escrowId := sampleRoundId
    chamaCycle := some (sampleCycle sampleSeats) }

/-- Two sealed members open one round: the earlier CREATE takes the root from the other. -/
theorem rival_round_reroots : ∃ r r' : Replayed,
    replayEventChain circleHost [roundCreate '0' 'b' 1800007250] none = .ok r ∧
      isCreate (roundCreate '1' 'c' 1800007210) = true ∧
      replayEventChain circleHost [roundCreate '0' 'b' 1800007250, roundCreate '1' 'c' 1800007210]
        none = .ok r' ∧
      r.state.initiator.pubkey = hexKey 'b' ∧ r'.state.initiator.pubkey = hexKey 'c' := by
  have hrun : (replayEventChain circleHost [roundCreate '0' 'b' 1800007250] none).toOption.any
      (fun r => r.state.initiator.pubkey = hexKey 'b') = true ∧
      (replayEventChain circleHost [roundCreate '0' 'b' 1800007250, roundCreate '1' 'c' 1800007210]
        none).toOption.any (fun r => r.state.initiator.pubkey = hexKey 'c') = true := by
    decide +kernel
  obtain ⟨r, hr, hfirst⟩ := exists_ok_of_any hrun.1
  obtain ⟨r', hr', hsecond⟩ := exists_ok_of_any hrun.2
  exact ⟨r, r', hr, rfl, hr', of_decide_eq_true hfirst, of_decide_eq_true hsecond⟩

/-- The listing of a stranger under the sample trade's id, dated before it. -/
def forgedCreate : ParsedEscrowEvent := { sampleCreate with
  raw := { sampleCreate.raw with
    id := hexKey '9', pubkey := hexKey 'e', createdAt := 1700000000
    id_ne := by decide, pubkey_ne := by decide, createdAt_ne := by decide } }

/-- The funded sample trade, opened by a reader who knows its creator: a backdated CREATE of a
stranger leaves its state. -/
theorem creates_root_trades_sample : ∃ r r' : Replayed,
    replayEventChain silentHost (sampleCreate :: fundedEvents) (some (hexKey 'a')) = .ok r ∧
      replayEventChain silentHost (forgedCreate :: sampleCreate :: fundedEvents)
        (some (hexKey 'a')) = .ok r' ∧ r'.state = r.state := by
  have hrun : (replayEventChain silentHost (sampleCreate :: fundedEvents)
        (some (hexKey 'a'))).toOption.any (fun r => r.state.initiator.pubkey = hexKey 'a') = true ∧
      (replayEventChain silentHost (forgedCreate :: sampleCreate :: fundedEvents)
        (some (hexKey 'a'))).isOk = true := by
    decide +kernel
  obtain ⟨r, hr, howner⟩ := exists_ok_of_any hrun.1
  replace howner : r.state.initiator.pubkey = hexKey 'a' := of_decide_eq_true howner
  cases hr' : replayEventChain silentHost (forgedCreate :: sampleCreate :: fundedEvents)
      (some (hexKey 'a')) with
  | error halt =>
    rw [hr'] at hrun
    cases hrun.2
  | ok r' =>
    have hforged : Forged silentHost r.state.initiator.pubkey forgedCreate := by
      rw [howner]
      exact ⟨rfl, by decide +kernel, fun h => by cases h.1⟩
    have hkeep (l : List ParsedEscrowEvent) :
        Inserts (Forged silentHost r.state.initiator.pubkey) l l := by
      induction l with
      | nil => exact .nil
      | cons e rest ih => exact .keep e ih
    exact ⟨r, r', hr, rfl, (creates_root_trades silentHost (some (hexKey 'a'))
      (sampleCreate :: fundedEvents) r hr).2.2 _ (.insert forgedCreate hforged (hkeep _)) r' hr'⟩

end ChamaEscrow
