import ChamaEscrow.Trade.Votes
import Mathlib.Data.List.Dedup

/-!
# Naming a majority

A RESOLVE names the two roles that it rests on, and the reducer looks for them among the votes of its
own table.  The table lists the roles in the order in which they first voted, and
`checkVoteThreshold` takes the first two of an outcome: when all three roles agree, the pair that it
finds is one of three, and a RESOLVE that names another pair is refused.

* `resolve_any_pair`: two roles that stand behind an outcome resolve it, in one order of the votes
  and in another, exactly when in both orders they voted before a third role that agrees with them.
-/

namespace ChamaEscrow

open Js Library

variable {host : Host} {s s' t : EscrowState} {e : ParsedEscrowEvent}

/-! ### The order of the vote table -/

theorem Stepped.votes_keys (h : Stepped host s e s') : s.votes.keys <+: s'.votes.keys := by
  rcases h.votes with ⟨hsame, -⟩ | ⟨live, p, -, hlive, -, hcast⟩
  · exact hsame.votes ▸ List.prefix_rfl
  · obtain ⟨next, -, hnext, -, hcount⟩ := hcast.count
    have hvotes : s.votes = next.votes := hlive.votes.symm.trans hnext.votes.symm
    rw [hvotes]
    unfold countVote at hcount
    by_cases hpooled : p.role = .arbiter ∧ live.lock.arbiterPoolShare = some true
    · rw [if_pos hpooled, bind_eq_ok] at hcount
      obtain ⟨best, -, hcount⟩ := hcount
      split at hcount <;> obtain rfl := pure_eq_ok.mp hcount
      · exact List.prefix_rfl
      · exact OrderedMap.keys_prefix_set _ _ _
    · rw [if_neg hpooled] at hcount
      obtain rfl := pure_eq_ok.mp hcount
      exact OrderedMap.keys_prefix_set _ _ _

/-- Whatever happens next, the roles that have voted stay listed in their order, before the roles
that vote later. -/
theorem liveFold_votes_keys (s : EscrowState) (es : List ParsedEscrowEvent) :
    s.votes.keys <+: (liveFold (applyToState host) s es).votes.keys :=
  liveFold_invariant (I := fun t => s.votes.keys <+: t.votes.keys)
    (fun _ _ _ ht h => ht.trans (applyToState_stepped h).votes_keys) List.prefix_rfl es

def CastFirst (votes : Votes) (o : Outcome) (r r' : Role) : Prop :=
  ∀ third, third ≠ r → third ≠ r' → votes.get third = some o →
    [r, third].Sublist votes.keys ∧ [r', third].Sublist votes.keys

variable {r r' : Role} {votes : Votes} {o : Outcome}

theorem pair_sublist_votersFor (hr : votes.get r = some o) (hr' : votes.get r' = some o) :
    [r, r'].Sublist (votersFor votes o) ↔ [r, r'].Sublist votes.keys := by
  constructor
  · intro h
    exact h.trans (List.filter_sublist.map _)
  · intro h
    obtain ⟨pair, hpair, hkeys⟩ := List.sublist_map_iff.mp h
    have hvoters : ∀ vote ∈ pair, vote.2 = o := by
      intro vote hvote
      have hrole : votes.get vote.1 = some o := by
        have hmem : vote.1 ∈ [r, r'] := hkeys ▸ List.mem_map_of_mem hvote
        rcases List.mem_pair.mp hmem with h | h <;> rw [h] <;> assumption
      exact votes.eq_of_mem_of_mem (hpair.subset hvote) ((votes.get_eq_some_iff _ o).mp hrole)
    have hall : pair.filter (fun vote => vote.2 = o) = pair := by
      rw [List.filter_eq_self]
      simpa using hvoters
    rw [hkeys, ← hall]
    exact (hpair.filter _).map _

/-! ### The pair that the votes name -/

theorem before_asymm {α : Type*} {l : List α} (h : l.Nodup) {a c : α} (hac : [a, c].Sublist l)
    (hca : [c, a].Sublist l) : False := by
  induction l with
  | nil => cases hac
  | cons x l ih =>
    rw [List.nodup_cons] at h
    cases hac with
    | cons _ hac =>
      cases hca with
      | cons _ hca => exact ih h.2 hac hca
      | cons_cons _ hca => exact h.1 (hac.subset (by simp))
    | cons_cons _ hac =>
      cases hca with
      | cons _ hca => exact h.1 (hca.subset (by simp))
      | cons_cons _ hca => exact h.1 (hca.subset (by simp))

/-- Two members of a list without repetitions are its first two exactly when both stand before every
other member. -/
theorem mem_take_two {α : Type*} {l : List α} (hl : l.Nodup) {a b : α} (hab : a ≠ b) (ha : a ∈ l)
    (hb : b ∈ l) : (a ∈ l.take 2 ∧ b ∈ l.take 2) ↔
      ∀ c ∈ l, c ≠ a → c ≠ b → [a, c].Sublist l ∧ [b, c].Sublist l := by
  match l with
  | [] => simp at ha
  | [x] => simp_all
  | x :: y :: rest =>
    have hsplit {c : α} (hc : c ∈ x :: y :: rest) : c ∈ [x, y] ∨ c ∈ rest := by
      simpa [or_assoc] using hc
    have before {z c : α} (hz : z ∈ [x, y]) (hc : c ∈ rest) : [z, c].Sublist (x :: y :: rest) :=
      List.Sublist.append (List.singleton_sublist.mpr hz) (List.singleton_sublist.mpr hc)
    have hxy : x ≠ y := by
      rintro rfl
      simp at hl
    have hapart {c d : α} (hc : c ∈ [x, y]) (hd : d ∈ rest) : c ≠ d := by
      rintro rfl
      have hself : [c, c].Sublist (x :: y :: rest) := before hc hd
      exact before_asymm hl hself hself
    change (a ∈ [x, y] ∧ b ∈ [x, y]) ↔ _
    constructor
    · rintro ⟨ha', hb'⟩ c hc hca hcb
      have hrest : c ∈ rest := by
        refine (hsplit hc).resolve_left fun hc' => ?_
        rw [List.mem_pair] at ha' hb' hc'
        grind
      exact ⟨before ha' hrest, before hb' hrest⟩
    · intro h
      -- If one of the pair is not among the first two, one of the first two is a third member.
      have other (d : α) : ∃ c ∈ [x, y], c ≠ d := by
        by_cases hd : x = d
        · exact ⟨y, by simp, fun h => hxy (hd.trans h.symm)⟩
        · exact ⟨x, by simp, hd⟩
      have hall {c : α} (hc : c ∈ [x, y]) : c ∈ x :: y :: rest :=
        (List.sublist_append_left [x, y] rest).subset hc
      constructor
      · refine (hsplit ha).resolve_right fun ha' => ?_
        obtain ⟨c, hc, hcb⟩ := other b
        have hback := (h c (hall hc) (hapart hc ha') hcb).1
        exact before_asymm hl (before hc ha') hback
      · refine (hsplit hb).resolve_right fun hb' => ?_
        obtain ⟨c, hc, hca⟩ := other a
        have hback := (h c (hall hc) hca (hapart hc hb')).2
        exact before_asymm hl (before hc hb') hback

theorem two_le_votersFor (hne : r ≠ r') (hr : votes.get r = some o) (hr' : votes.get r' = some o) :
    2 ≤ (votersFor votes o).length := by
  have hpair : [r, r'].Subperm (votersFor votes o) := by
    refine List.subperm_of_subset (by simpa using hne) fun c hc => ?_
    rcases List.mem_pair.mp hc with rfl | rfl
    · exact mem_votersFor.mpr hr
    · exact mem_votersFor.mpr hr'
  exact hpair.length_le

theorem sameMajority_iff (hne : r ≠ r') (hr : votes.get r = some o) (hr' : votes.get r' = some o) :
    sameMajority [some r, some r'] ((votersFor votes o).take 2) = true ↔
      CastFirst votes o r r' := by
  have hnodup := nodup_votersFor votes o
  have hfirst := mem_take_two hnodup hne (mem_votersFor.mpr hr) (mem_votersFor.mpr hr')
  have hcast : CastFirst votes o r r' ↔ ∀ c ∈ votersFor votes o, c ≠ r → c ≠ r' →
      [r, c].Sublist (votersFor votes o) ∧ [r', c].Sublist (votersFor votes o) := by
    refine forall_congr' fun c => ?_
    rw [mem_votersFor]
    constructor
    · intro h hc hcr hcr'
      rw [pair_sublist_votersFor hr hc, pair_sublist_votersFor hr' hc]
      exact h hcr hcr' hc
    · intro h hcr hcr' hc
      rw [← pair_sublist_votersFor hr hc, ← pair_sublist_votersFor hr' hc]
      exact h hc hcr hcr'
  rw [hcast, ← hfirst]
  have hlength : ((votersFor votes o).take 2).dedup.length = 2 := by
    rw [List.Nodup.dedup (hnodup.sublist (List.take_sublist _ _)), List.length_take,
      min_eq_left (two_le_votersFor hne hr hr')]
  have hdedup : [some r, some r'].dedup.length = 2 := by
    rw [List.Nodup.dedup (by simpa using hne)]
    rfl
  simp [sameMajority, hlength, hdedup]

theorem checkVoteThreshold_eq (hne : r ≠ r')
    (hr : votes.get r = some o) (hr' : votes.get r' = some o) :
    checkVoteThreshold votes = some ⟨o, (votersFor votes o).take 2⟩ := by
  have htwo := two_le_votersFor hne hr hr'
  unfold checkVoteThreshold
  cases o with
  | release => rw [if_pos htwo]
  | refund =>
    have hfew : ¬ 2 ≤ (votersFor votes .release).length := by
      intro hmany
      -- Two releasers and two refunders would be four roles.
      obtain ⟨q, q', hq, hvote, hvote'⟩ := two_voters hmany
      have apart {a b : Role} (ha : votes.get a = some .refund)
          (hb : votes.get b = some .release) : a ≠ b := by
        rintro rfl
        rw [ha] at hb
        cases hb
      have hrq := apart hr hvote
      have hrq' := apart hr hvote'
      have hr'q := apart hr' hvote
      have hr'q' := apart hr' hvote'
      cases r <;> cases r' <;> cases q <;> cases q' <;> contradiction
    rw [if_neg hfew, if_pos htwo]

/-- Two standing votes for an outcome settle a RESOLVE that names their roles exactly when they came
first. -/
theorem resolveError_iff {p : ResolvePayload} (hne : r ≠ r')
    (hnames : p.majority = [some r, some r']) (hr : votes.get r = some p.outcome)
    (hr' : votes.get r' = some p.outcome) :
    resolveError votes p = none ↔ CastFirst votes p.outcome r r' := by
  rw [← sameMajority_iff hne hr hr', resolveError, checkVoteThreshold_eq hne hr hr', hnames]
  simp

/-! ### The RESOLVE -/

/-- `applyEvent` accepts an event. -/
def AcceptsEvent (host : Host) (s : EscrowState) (e : ParsedEscrowEvent) : Prop :=
  ∃ s', applyEvent host (some s) e = .ok s'

def ComesLate (s : EscrowState) (e : ParsedEscrowEvent) : Prop :=
  isPastDeadline s e = true ∧ s.status ≠ .expired

/-- When a RESOLVE that names two roles is heard: it is in the chain already, it comes too late and
only expires the trade, which the December rules let its own people do, or the two roles voted
first. -/
def Heard (s : EscrowState) (e : ParsedEscrowEvent) (o : Outcome) (r r' : Role) : Prop :=
  s.hasEvent e.id = true ∨
    (ComesLate s e ∧ (asksForAPlace s = true → mayCarryPastExpiry s e.pubkey = .ok true)) ∨
    (¬ ComesLate s e ∧ CastFirst s.votes o r r')

/-- A RESOLVE of a trade outside circles that names two standing votes for its outcome. -/
structure NamesPair (s : EscrowState) (e : ParsedEscrowEvent) (p : ResolvePayload) (r r' : Role) :
    Prop where
  payload : e.payload = .resolve p
  names : p.majority = [some r, some r']
  apart : r ≠ r'
  first : s.votes.get r = some p.outcome
  second : s.votes.get r' = some p.outcome

theorem expiryGate_late {next : EscrowState} (hlate : ComesLate s e)
    (hplaced : asksForAPlace s = true → mayCarryPastExpiry s e.pubkey = .ok true)
    (hnext : cloneState s = .ok next) :
    expiryGate s e = .ok (if e.kind = .vote ∨ e.kind = .lockStep then
      .dispatch { next with status := .expired } else .expired { next with status := .expired }) := by
  have hplace : placeGate s e = .ok () := by
    unfold placeGate
    split_ifs with hasks
    · rw [hplaced hasks]
      rfl
    · rfl
  unfold expiryGate
  rw [if_pos hlate.1, hplace]
  change passDeadline s e = _
  unfold passDeadline expire
  rw [if_neg hlate.2, hnext]
  rfl

theorem accepts_late_iff (hkind : e.kind = .resolve) (hlaw : outcomeLaw host s e = none)
    (hfresh : s.hasEvent e.id = false) (hopen : s.status.isTrulyTerminal = false)
    (hclone : Clonable s) (hlate : ComesLate s e) :
    (∃ s', applyToState host s e = .ok s') ↔
      (asksForAPlace s = true → mayCarryPastExpiry s e.pubkey = .ok true) := by
  constructor
  · rintro ⟨s', h⟩
    cases applyToState_stepped h with
    | echoed known => simp [hfresh, hkind] at known
    | premium payload => simp [ParsedEscrowEvent.kind, payload, EscrowPayload.kind] at hkind
    | settlement payload => simp [ParsedEscrowEvent.kind, payload, EscrowPayload.kind] at hkind
    | expired _ expires => exact expires.placed
    | handled _ _ due => exact absurd due (by simp [hlate.1, hlate.2])
    | lateHandled _ kind => simp [hkind] at kind
  · intro hplaced
    obtain ⟨next, hnext⟩ := hclone.cloneState
    have hgate := expiryGate_late hlate hplaced hnext
    rw [if_neg (by simp [hkind])] at hgate
    have hconsensus : e.payload.kind.isConsensus = true := by
      rw [show e.payload.kind = .resolve from hkind]
      rfl
    refine ⟨{ next with status := .expired }, ?_⟩
    rw [applyToState_consensus hconsensus, hlaw, applyConsensus, if_neg (by simp [hfresh]), hgate,
      hopen]
    rfl

theorem NamesPair.accepts_iff {p : ResolvePayload} (h : NamesPair s e p r r')
    (hs : Reached host s) (hplain : s.chamaPolicy = none)
    (hstatus : s.status = .locked ∨ s.status = .expired) :
    AcceptsEvent host s e ↔ Heard s e p.outcome r r' := by
  have hkind : e.kind = .resolve := by rw [ParsedEscrowEvent.kind, h.payload, EscrowPayload.kind]
  have hconsensus : e.payload.kind.isConsensus = true := by rw [h.payload]; rfl
  have hlaw : outcomeLaw host s e = none := by
    rw [outcomeLaw, h.payload]
    simp [chamaOutcomeError, hplain]
  have hopen : s.status.isTrulyTerminal = false := by rcases hstatus with h | h <;> rw [h] <;> rfl
  have hclone : Clonable s :=
    hs.clonable_of_moved (by rcases hstatus with h | h <;> rw [h] <;> decide)
  obtain ⟨next, hnext⟩ := hclone.cloneState
  unfold AcceptsEvent Heard
  rw [applyEvent_some]
  by_cases hknown : s.hasEvent e.id = true
  · refine iff_of_true ⟨s, ?_⟩ (Or.inl hknown)
    rw [applyToState_consensus hconsensus, hlaw, applyConsensus, if_pos hknown]
    rfl
  · have hfresh : s.hasEvent e.id = false := by simpa using hknown
    by_cases hlate : ComesLate s e
    · rw [accepts_late_iff hkind hlaw hfresh hopen hclone hlate]
      simp [hfresh, hlate]
    · have hdue : isPastDeadline s e = false ∨ s.status = .expired := by
        unfold ComesLate at hlate
        rw [not_and_not_right] at hlate
        by_cases hpast : isPastDeadline s e = true
        · exact Or.inr (hlate hpast)
        · exact Or.inl (by simpa using hpast)
      rw [applyToState_dispatch hconsensus hlaw hfresh hopen hdue, dispatch, h.payload]
      have hheard : Heard s e p.outcome r r' ↔ resolveError s.votes p = none := by
        rw [resolveError_iff h.apart h.names h.first h.second]
        simp [Heard, hfresh, hlate]
      change _ ↔ Heard s e p.outcome r r'
      rw [hheard]
      have houtcome := hlaw
      rw [outcomeLaw, h.payload] at houtcome
      simp only [handleResolve, bind_eq_ok, guardErr_eq_ok, guardNone_eq_ok, guardProblem_eq_ok,
        js_eq_ok, pure_eq_ok]
      constructor
      · rintro ⟨s', _, -, _, -, _, hvotes, -⟩
        exact hvotes
      · intro hvotes
        exact ⟨_, (), houtcome, (), by tauto, (), hvotes, next, hnext, rfl⟩

/-! ### Two orders -/

/-- Two states that the same events lead to from one trade in two orders, with the same standing
votes. -/
structure Recast (host : Host) (s t : EscrowState) : Prop where
  votes : ∀ role, t.votes.get role = s.votes.get role
  reordered : ∃ trade es es', Reached host trade ∧ es'.Perm es ∧
    s = liveFold (applyToState host) trade es ∧ t = liveFold (applyToState host) trade es'

theorem Reached.terms_liveFold (es : List ParsedEscrowEvent) :
    (liveFold (applyToState host) s es).toTradeTerms = s.toTradeTerms :=
  liveFold_invariant (I := fun t => t.toTradeTerms = s.toTradeTerms)
    (fun _ _ _ ht h => (applyToState_stepped h).terms.trans ht) rfl es

/-- Two roles whose standing votes agree resolve a trade outside circles, and resolve it still when
the same votes were cast in another order, exactly when they are heard in both orders. -/
theorem resolve_any_pair (host : Host) (s t : EscrowState) (h : Recast host s t)
    (hplain : s.chamaPolicy = none) (hs : s.status = .locked ∨ s.status = .expired)
    (ht : t.status = .locked ∨ t.status = .expired) (e : ParsedEscrowEvent) (p : ResolvePayload)
    (r r' : Role) (hpair : NamesPair s e p r r') :
    (AcceptsEvent host s e ∧ (AcceptsEvent host t e ↔ AcceptsEvent host s e)) ↔
      (Heard s e p.outcome r r' ∧ Heard t e p.outcome r r') := by
  obtain ⟨trade, es, es', htrade, -, rfl, rfl⟩ := h.reordered
  have hpair' : NamesPair (liveFold (applyToState host) trade es') e p r r' :=
    ⟨hpair.payload, hpair.names, hpair.apart, (h.votes r).trans hpair.first,
      (h.votes r').trans hpair.second⟩
  have hplain' : (liveFold (applyToState host) trade es').chamaPolicy = none := by
    rw [← hplain, Reached.terms_liveFold, Reached.terms_liveFold]
  rw [hpair.accepts_iff (Run.fold htrade fun _ _ _ => trivial) hplain hs,
    hpair'.accepts_iff (Run.fold htrade fun _ _ _ => trivial) hplain' ht]
  exact and_congr_right fun hheard => iff_true_right hheard

def healingVote : Role → ParsedEscrowEvent
  | .buyer => sampleVote '3' 'b' 1800004000 .buyer .refund
  | .seller => sampleVote '4' 'a' 1800004001 .seller .refund
  | .arbiter => sampleVote '5' 'c' 1800004002 .arbiter .refund

def healed (trade : EscrowState) (roles : List Role) : EscrowState :=
  liveFold (applyToState silentHost) trade (roles.map healingVote)

def healingResolve : ParsedEscrowEvent := sampleResolve 1800004010 .refund

/-- Whether a state is expired with two refunds of the principals and a given vote of the arbiter, and
whether it accepts the RESOLVE that names the principals. -/
def healsTo (s : EscrowState) (arbiter : Option Outcome) (accepted : Bool) : Bool :=
  s.status = .expired && s.chamaPolicy.isNone && s.votes.get .buyer = some .refund &&
    s.votes.get .seller = some .refund && s.votes.get .arbiter = arbiter &&
      (applyToState silentHost s healingResolve).isOk = accepted

variable {arbiter : Option Outcome} {accepted : Bool}

theorem healsTo_votes (h : healsTo s arbiter accepted = true) (role : Role) :
    s.votes.get role = if role = .arbiter then arbiter else some .refund := by
  simp only [healsTo, Bool.and_eq_true, decide_eq_true_eq] at h
  cases role <;> simp [h]

theorem expired_of_healsTo
    (h : healsTo s arbiter accepted = true) : s.chamaPolicy = none ∧ s.status = .expired := by
  simp only [healsTo, Bool.and_eq_true, decide_eq_true_eq, Option.isNone_iff_eq_none] at h
  exact ⟨h.1.1.1.1.2, h.1.1.1.1.1⟩

theorem accepts_of_healsTo (h : healsTo s arbiter accepted = true) :
    AcceptsEvent silentHost s healingResolve ↔ accepted = true := by
  simp only [healsTo, Bool.and_eq_true, decide_eq_true_eq] at h
  rw [← h.2]
  unfold AcceptsEvent
  rw [applyEvent_some]
  cases applyToState silentHost s healingResolve <;> simp [Except.isOk, Except.toBool]

theorem namesPair_of_healsTo (h : healsTo s arbiter accepted = true) :
    NamesPair s healingResolve {
      outcome := .refund
      majority := [some .buyer, some .seller]
      resolvedAt := .ofInt (1800004010 : ℕ) } .buyer .seller :=
  ⟨rfl, rfl, by decide, healsTo_votes h .buyer, healsTo_votes h .seller⟩

theorem recast_healed {trade : EscrowState} {roles roles' : List Role}
    {accepted accepted' : Bool} (htrade : Reached silentHost trade) (hperm : roles'.Perm roles)
    (h : healsTo (healed trade roles) arbiter accepted = true)
    (h' : healsTo (healed trade roles') arbiter accepted' = true) :
    Recast silentHost (healed trade roles) (healed trade roles') :=
  ⟨fun role => by rw [healsTo_votes h, healsTo_votes h'], trade, _, _, htrade,
    hperm.map healingVote, rfl, rfl⟩

/-- The principals and the arbiter all vote for the refund.  The RESOLVE that names the principals is
accepted where they voted first, and refused where the arbiter did. -/
theorem third_vote_decides : ∃ s t e p r r', Recast silentHost s t ∧ s.chamaPolicy = none ∧
    s.status = .expired ∧ t.status = .expired ∧ NamesPair s e p r r' ∧ NamesPair t e p r r' ∧
      AcceptsEvent silentHost s e ∧ ¬ AcceptsEvent silentHost t e := by
  have hrun : (liveTrade silentHost sampleCreate [sampleJoin, sampleLock]).any (fun trade =>
      healsTo (healed trade [.buyer, .seller, .arbiter]) (some .refund) true &&
        healsTo (healed trade [.arbiter, .buyer, .seller]) (some .refund) false) = true := by
    decide +kernel
  obtain ⟨trade, htrade, h⟩ := (Option.any_eq_true _ _).mp hrun
  rw [Bool.and_eq_true] at h
  obtain ⟨hs, ht⟩ := h
  have hperm : [Role.arbiter, .buyer, .seller].Perm [.buyer, .seller, .arbiter] := by decide
  exact ⟨_, _, _, _, _, _, recast_healed (liveTrade_reached silentHost htrade) hperm hs ht,
    (expired_of_healsTo hs).1, (expired_of_healsTo hs).2, (expired_of_healsTo ht).2,
    namesPair_of_healsTo hs, namesPair_of_healsTo ht, (accepts_of_healsTo hs).mpr rfl,
    fun h => Bool.false_ne_true ((accepts_of_healsTo ht).mp h)⟩

/-- The refunds of the two principals alone resolve the trade in either order. -/
theorem resolve_any_pair_sample : ∃ s t, Recast silentHost s t ∧
    Heard s healingResolve .refund .buyer .seller ∧
      Heard t healingResolve .refund .buyer .seller := by
  have hrun : (liveTrade silentHost sampleCreate [sampleJoin, sampleLock]).any (fun trade =>
      healsTo (healed trade [.buyer, .seller]) none true &&
        healsTo (healed trade [.seller, .buyer]) none true) = true := by
    decide +kernel
  obtain ⟨trade, htrade, h⟩ := (Option.any_eq_true _ _).mp hrun
  rw [Bool.and_eq_true] at h
  obtain ⟨hs, ht⟩ := h
  have hrecast := recast_healed (liveTrade_reached silentHost htrade) (by decide) hs ht
  refine ⟨_, _, hrecast, (resolve_any_pair silentHost _ _ hrecast (expired_of_healsTo hs).1
    (Or.inr (expired_of_healsTo hs).2) (Or.inr (expired_of_healsTo ht).2) _ _ _ _
    (namesPair_of_healsTo hs)).mp ⟨?_, ?_⟩⟩
  · exact (accepts_of_healsTo hs).mpr rfl
  · exact iff_of_true ((accepts_of_healsTo ht).mpr rfl) ((accepts_of_healsTo hs).mpr rfl)

end ChamaEscrow
