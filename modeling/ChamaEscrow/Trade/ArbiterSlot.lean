import ChamaEscrow.Trade.Votes
import Mathlib.Data.List.MinMax

/-!
# The pooled arbiter slot

On a pooled LOCK several arbiters may vote, and the slot is derived from all of their votes: the
author who comes first in the priority order fills it.

* `bestArbiterVote_eq_argmin`: the loop of the vote handler finds the vote of least index.
* `pooled_slot_converges`: in every reachable state of a pooled trade the slot holds the accepted
  arbiter vote of least index, every key has one vote at most, and two runs of the trade that
  accepted the same arbiter votes hold the same slot.
-/

namespace ChamaEscrow

open Js Library

variable {host : Host} {s s' t : EscrowState} {e : ParsedEscrowEvent}

/-! ### The vote of least index -/

def rankedVotes (order : List String) (votes : List (ParsedEscrowEvent × VotePayload)) :
    List ArbiterVote :=
  votes.filterMap fun (e, p) =>
    if p.role ≠ .arbiter then none
    else (order.findIdx? fun pk => pk = e.pubkey).map fun i => ⟨i, p.outcome, e.pubkey⟩

theorem argmin_cons_cons {α β : Type*} [LinearOrder β] (f : α → β) (a b : α) (l : List α) :
    (a :: b :: l).argmin f = ((if f b < f a then b else a) :: l).argmin f := by
  by_cases h : f b < f a <;> simp [List.argmin, List.argAux, h]

theorem bestArbiterVote_eq_argmin {order : List String}
    (horder : arbiterPriorityOrder s = .ok order)
    (votes : List (ParsedEscrowEvent × VotePayload)) (best : Option ArbiterVote) :
    bestArbiterVote s votes best =
      .ok ((best.toList ++ rankedVotes order votes).argmin ArbiterVote.priority) := by
  induction votes generalizing best with
  | nil => cases best <;> simp [bestArbiterVote, rankedVotes]
  | cons vote rest ih =>
    obtain ⟨v, q⟩ := vote
    unfold bestArbiterVote
    by_cases hrole : q.role = .arbiter
    swap
    · simp [hrole, ih, rankedVotes]
    · have hplace : arbiterVotePriority s v.pubkey =
          .ok (order.findIdx? fun pk => pk = v.pubkey) := by
        rw [arbiterVotePriority, horder]
        rfl
      rw [if_neg (not_not.mpr hrole), hplace, ok_bind]
      cases hidx : order.findIdx? fun pk => pk = v.pubkey with
      | none => simp [hidx, ih, rankedVotes]
      | some i =>
        have hranked : rankedVotes order ((v, q) :: rest) =
            ⟨i, q.outcome, v.pubkey⟩ :: rankedVotes order rest :=
          List.filterMap_cons_some (by simp [hrole, hidx])
        rw [hranked]
        cases best with
        | none => simp [ih]
        | some b =>
          by_cases hlt : i < b.priority <;> simp [ih, hlt, argmin_cons_cons]

/-! ### The slot of a chain -/

structure ArbiterVoteOf (s : EscrowState) (v : ParsedEscrowEvent) (q : VotePayload) : Prop where
  accepted : v ∈ s.eventChain
  payload : v.payload = .vote q
  role : q.role = .arbiter

structure FirstVote (s : EscrowState) (v : ParsedEscrowEvent) (q : VotePayload) : Prop
    extends ArbiterVoteOf s v q where
  place : ∃ i, arbiterVotePriority s v.pubkey = .ok (some i) ∧ ∀ w r, ArbiterVoteOf s w r →
    ∃ j, arbiterVotePriority s w.pubkey = .ok (some j) ∧ i ≤ j

def SlotIs (s : EscrowState) (o : Option Outcome) (pubkey : Option String) : Prop :=
  s.votes.get .arbiter = o ∧ s.actingArbiter = pubkey

def SlotDerived (s : EscrowState) : Prop :=
  ∃ best, bestArbiterVote s (voteEvents s.eventChain) none = .ok best ∧
    SlotIs s (best.map ArbiterVote.outcome) (best.map ArbiterVote.pubkey)

theorem bestArbiterVote_append (votes later : List (ParsedEscrowEvent × VotePayload))
    (best : Option ArbiterVote) : bestArbiterVote s (votes ++ later) best =
      bestArbiterVote s votes best >>= bestArbiterVote s later := by
  induction votes generalizing best with
  | nil => rfl
  | cons vote rest ih =>
    obtain ⟨v, q⟩ := vote
    simp only [List.cons_append, bestArbiterVote]
    split_ifs
    · exact ih best
    · cases arbiterVotePriority s v.pubkey with
      | error error => rfl
      | ok place =>
        simp only [ok_bind]
        cases place with
        | none => exact ih best
        | some place =>
          dsimp only
          split_ifs
          · exact ih _
          · exact ih best

theorem bestArbiterVote_congr (h : ∀ pubkey, arbiterVotePriority s' pubkey =
      arbiterVotePriority s pubkey) (votes : List (ParsedEscrowEvent × VotePayload))
    (best : Option ArbiterVote) :
    bestArbiterVote s' votes best = bestArbiterVote s votes best := by
  induction votes generalizing best with
  | nil => rfl
  | cons vote rest ih =>
    obtain ⟨v, q⟩ := vote
    simp only [bestArbiterVote, h, ih]

theorem voteEvents_append (chain later : List ParsedEscrowEvent) :
    voteEvents (chain ++ later) = voteEvents chain ++ voteEvents later := by
  simp [voteEvents]

theorem voteEvents_of_kind (hkind : e.kind ≠ .vote) : voteEvents [e] = [] := by
  rw [ParsedEscrowEvent.kind] at hkind
  cases hp : e.payload <;> simp_all [voteEvents, EscrowPayload.kind]

variable {p : VotePayload}

theorem voteEvents_of_payload (hp : e.payload = .vote p) : voteEvents [e] = [(e, p)] := by
  simp [voteEvents, hp]

/-! ### The invariant -/

/-- What ties the slot of a trade to its chain. -/
structure PooledSlot (s : EscrowState) : Prop where
  opened : s.status = .created → voteEvents s.eventChain = [] ∧ SlotIs s none none
  filled : ∀ v q, v ∈ s.eventChain → v.payload = .vote q → Fills s q.role v.pubkey
  derived : s.lock.arbiterPoolShare = some true → SlotDerived s

variable {best : Option ArbiterVote}

theorem bestArbiterVote_push (hp : e.payload = .vote p)
    (hkeeps : KeepsCustody s s') (hchain : s'.eventChain = s.eventChain ++ [e])
    (hbest : bestArbiterVote s (voteEvents s.eventChain) none = .ok best) :
    bestArbiterVote s' (voteEvents s'.eventChain) none = bestArbiterVote s [(e, p)] best := by
  have hplace (pubkey : String) := arbiterVotePriority_congr hkeeps.core hkeeps.arbiter pubkey
  rw [bestArbiterVote_congr hplace, hchain, voteEvents_append, bestArbiterVote_append, hbest,
    voteEvents_of_payload hp, ok_bind]

theorem eq_none_of_bestArbiterVote
    (h : bestArbiterVote s [(e, p)] best = .ok none) : best = none := by
  rw [bestArbiterVote] at h
  split_ifs at h
  · exact Except.ok.inj h
  · rw [bind_eq_ok] at h
    obtain ⟨place, -, h⟩ := h
    cases place with
    | none => exact Except.ok.inj h
    | some place =>
      dsimp only at h
      split_ifs at h
      · cases h
      · exact Except.ok.inj h

theorem CastsVote.slotDerived {live : EscrowState} (h : CastsVote live e p s')
    (hpooled : live.lock.arbiterPoolShare = some true) (hlive : SlotDerived live) :
    SlotDerived s' := by
  obtain ⟨next, hkeeps, hvotes, hchain, hcount⟩ := h.count
  obtain ⟨best, hbest, hslot⟩ := hlive
  have hafter := bestArbiterVote_push h.payload h.keeps h.chain hbest
  have hnext := bestArbiterVote_push h.payload hkeeps hchain hbest
  unfold countVote at hcount
  by_cases hrole : p.role = .arbiter
  · rw [if_pos ⟨hrole, hpooled⟩, bind_eq_ok] at hcount
    obtain ⟨found, hfound, hcount⟩ := hcount
    rw [hnext] at hfound
    refine ⟨found, hafter.trans hfound, ?_⟩
    cases found with
    | none =>
      rw [eq_none_of_bestArbiterVote hfound] at hslot
      rw [← pure_eq_ok.mp hcount]
      exact ⟨hvotes.votes ▸ hslot.1, hvotes.acting ▸ hslot.2⟩
    | some found =>
      rw [← pure_eq_ok.mp hcount]
      exact ⟨by rw [OrderedMap.get_set, if_pos rfl]; rfl, rfl⟩
  · rw [if_neg (not_and_of_not_left _ hrole)] at hcount
    refine ⟨best, ?_, ?_⟩
    · rw [hafter, bestArbiterVote, if_pos hrole, bestArbiterVote]
    · rw [← pure_eq_ok.mp hcount]
      refine ⟨?_, ?_⟩
      · dsimp only
        rw [OrderedMap.get_set, if_neg (Ne.symm hrole), hvotes.votes, hslot.1]
      · dsimp only
        rw [if_neg hrole, hvotes.acting, hslot.2]

theorem Stepped.voteEvents_eq (h : Stepped host s e s')
    (hkind : e.kind = .vote → s'.eventChain = s.eventChain) :
    voteEvents s'.eventChain = voteEvents s.eventChain := by
  rcases h.eventChain with hsame | hpush
  · rw [hsame]
  · by_cases hvote : e.kind = .vote
    · rw [hkind hvote]
    · rw [hpush, voteEvents_append, voteEvents_of_kind hvote, List.append_nil]

theorem SlotDerived.congr (h : SlotDerived s) (hcore : s'.core = s.core)
    (harbiter : s'.participants.arbiter = s.participants.arbiter)
    (hvotes : voteEvents s'.eventChain = voteEvents s.eventChain) (hsame : SameVotes s s') :
    SlotDerived s' := by
  obtain ⟨best, hbest, hslot⟩ := h
  refine ⟨best, ?_, hsame.votes ▸ hslot.1, hsame.acting ▸ hslot.2⟩
  rw [hvotes, bestArbiterVote_congr (arbiterVotePriority_congr hcore harbiter), hbest]

variable {v : ParsedEscrowEvent} {q : VotePayload}

theorem PooledSlot.filled_step (hs : PooledSlot s) (hreached : Reached host s)
    (h : Stepped host s e s') (hv : v ∈ s'.eventChain)
    (hq : v.payload = .vote q) : Fills s' q.role v.pubkey := by
  have earlier (hv : v ∈ s.eventChain) : Fills s' q.role v.pubkey := by
    have hopen : s.status ≠ .created := by
      intro hcreated
      have hmem : (v, q) ∈ voteEvents s.eventChain := mem_voteEvents.mpr ⟨hv, hq⟩
      rw [(hs.opened hcreated).1] at hmem
      cases hmem
    exact (hs.filled v q hv hq).step hreached v.raw.pubkey_ne hopen h
  rcases h.eventChain with hsame | hpush
  · exact earlier (hsame ▸ hv)
  · rw [hpush, List.mem_append, List.mem_singleton] at hv
    rcases hv with hv | rfl
    · exact earlier hv
    · rcases h.votes with ⟨-, hchain⟩ | ⟨live, p, -, -, -, hcast⟩
      · have hkind : v.kind = .vote := by rw [ParsedEscrowEvent.kind, hq]; rfl
        rw [hchain hkind] at hpush
        simp at hpush
      · obtain rfl : p = q := by simpa [hq] using hcast.payload.symm
        exact (voterRole_fills hcast.role).congr hcast.keeps.core hcast.keeps.arbiter

theorem PooledSlot.derived_step (hs : PooledSlot s) (hreached : Reached host s)
    (h : Stepped host s e s') (hpooled : s'.lock.arbiterPoolShare = some true) :
    SlotDerived s' := by
  by_cases hcreated : s.status = .created
  · obtain ⟨hnone, hslot⟩ := hs.opened hcreated
    have hunfunded : s.lock.arbiterPoolShare = none := by
      have hlock : s.hasLock = false := by
        by_contra hlock
        exact (hreached.funded (by simpa using hlock)).not_open hcreated
      rw [hreached.lock_of_unfunded hlock]
    rcases h.votes with ⟨hsame, hchain⟩ | ⟨live, p, hkeeps, -, -, hcast⟩
    · refine ⟨none, ?_, hsame.votes ▸ hslot.1, hsame.acting ▸ hslot.2⟩
      rw [h.voteEvents_eq hchain, hnone, bestArbiterVote]
    · have hcore := congrArg CustodyCore.arbiterPoolShare (hcast.keeps.core.trans hkeeps.core)
      rw [show s'.lock.arbiterPoolShare = s.lock.arbiterPoolShare from hcore, hunfunded] at hpooled
      cases hpooled
  · have hcore := h.pastOpen_core hcreated
    have hbefore : s.lock.arbiterPoolShare = some true :=
      (congrArg CustodyCore.arbiterPoolShare hcore).symm.trans hpooled
    have hseats := (hreached.funded (hreached.hasLock_of_pooled hbefore)).seats.step hcreated h
    have hderived := hs.derived hbefore
    rcases h.votes with ⟨hsame, hchain⟩ | ⟨live, p, hkeeps, hlive, hchain, hcast⟩
    · exact hderived.congr hcore (congrArg PerRole.arbiter hseats) (h.voteEvents_eq hchain) hsame
    · refine hcast.slotDerived ?_ ?_
      · exact (congrArg CustodyCore.arbiterPoolShare hkeeps.core).trans hbefore
      · exact hderived.congr hkeeps.core hkeeps.arbiter (by rw [hchain]) hlive

theorem PooledSlot.step (hs : PooledSlot s) (hreached : Reached host s)
    (h : Stepped host s e s') : PooledSlot s' := by
  refine ⟨fun hcreated => ?_, fun v q => hs.filled_step hreached h, hs.derived_step hreached h⟩
  have hbefore : s.status = .created := by
    by_contra hopen
    exact h.not_open hopen hcreated
  obtain ⟨hnone, hslot⟩ := hs.opened hbefore
  rcases h.votes with ⟨hsame, hchain⟩ | ⟨live, p, -, -, -, hcast⟩
  · exact ⟨(h.voteEvents_eq hchain).trans hnone, hsame.votes ▸ hslot.1, hsame.acting ▸ hslot.2⟩
  · have hstatus := hcast.status
    rw [← hcast.after, hcreated] at hstatus
    rcases hstatus with h | h <;> cases h

theorem Reached.pooledSlot (h : Reached host s) : PooledSlot s := by
  refine Run.strengthen (I := PooledSlot) (J := Reached host) (fun s h => h) (fun s hs => ?_)
    (fun s e s' _ hreached hs h => hs.step hreached (applyToState_stepped h)) h
  obtain ⟨e, p, hborn⟩ := hs.newborn
  have hkind : e.kind ≠ .vote := by
    rw [ParsedEscrowEvent.kind, hborn.payload]
    simp [EscrowPayload.kind]
  refine ⟨fun _ => ⟨?_, ?_, hborn.actingArbiter⟩, fun v q hv hq => ?_, fun hpooled => ?_⟩
  · rw [hborn.eventChain, voteEvents_of_kind hkind]
  · rw [hborn.votes, OrderedMap.get_empty]
  · rw [hborn.eventChain, List.mem_singleton] at hv
    subst hv
    simp [hborn.payload] at hq
  · rw [hborn.lock] at hpooled
    cases hpooled

/-! ### The first vote -/

theorem appendBackups_prefix {pool : List JsValue} {escrowId : String}
    {principals : List (Option String)} {fuel : ℕ} {order found : List String}
    (h : appendBackups pool escrowId principals fuel order = .ok found) : order <+: found := by
  induction fuel generalizing order with
  | zero => exact Except.ok.inj h ▸ List.prefix_rfl
  | succ fuel ih =>
    rw [appendBackups] at h
    split_ifs at h
    · exact Except.ok.inj h ▸ List.prefix_rfl
    · rw [bind_eq_ok] at h
      obtain ⟨next, -, h⟩ := h
      split at h
      · exact pure_eq_ok.mp h ▸ List.prefix_rfl
      · exact (List.prefix_append _ _).trans (ih h)

theorem arbiterVotePriority_seated {order : List String}
    (horder : arbiterPriorityOrder s = .ok order)
    {pubkey : String} (hkey : pubkey ≠ "") (hseat : s.participants.arbiter = some pubkey) :
    arbiterVotePriority s pubkey = .ok (some 0) := by
  have hfirst : [pubkey] <+: order := by
    unfold arbiterPriorityOrder arbiterPriorityOrderFor at horder
    rw [bind_eq_ok] at horder
    obtain ⟨members, -, h⟩ := horder
    rw [hseat, truthyKey_some hkey] at h
    exact appendBackups_prefix h
  obtain ⟨rest, rfl⟩ := hfirst
  rw [arbiterVotePriority, horder, ok_bind]
  simp [pure, Except.pure, List.findIdx?_cons]

variable {votes : List (ParsedEscrowEvent × VotePayload)}

theorem order_of_bestArbiterVote
    {best found : Option ArbiterVote} (h : bestArbiterVote s votes best = .ok found)
    (hv : (v, q) ∈ votes) (hrole : q.role = .arbiter) :
    ∃ order, arbiterPriorityOrder s = .ok order := by
  induction votes generalizing best with
  | nil => cases hv
  | cons vote rest ih =>
    obtain ⟨w, r⟩ := vote
    rw [bestArbiterVote] at h
    split_ifs at h with hother
    · rcases List.mem_cons.mp hv with heq | hv
      · obtain ⟨-, rfl⟩ := Prod.mk.inj heq
        exact absurd hrole hother
      · exact ih h hv
    · rw [bind_eq_ok] at h
      obtain ⟨place, hplace, -⟩ := h
      rw [arbiterVotePriority, bind_eq_ok] at hplace
      obtain ⟨order, horder, -⟩ := hplace
      exact ⟨order, horder⟩

theorem bestArbiterVote_of_none (h : ∀ v q, (v, q) ∈ votes → q.role ≠ .arbiter) :
    bestArbiterVote s votes best = .ok best := by
  induction votes with
  | nil => rfl
  | cons vote rest ih =>
    obtain ⟨v, q⟩ := vote
    rw [bestArbiterVote, if_pos (h v q List.mem_cons_self)]
    exact ih fun w r hw => h w r (List.mem_cons_of_mem _ hw)

theorem arbiterVoteOf_iff :
    ArbiterVoteOf s v q ↔ (v, q) ∈ voteEvents s.eventChain ∧ q.role = .arbiter := by
  rw [mem_voteEvents]
  exact ⟨fun h => ⟨⟨h.accepted, h.payload⟩, h.role⟩, fun h => ⟨h.1.1, h.1.2, h.2⟩⟩

theorem mem_rankedVotes {order : List String}
    {b : ArbiterVote} : b ∈ rankedVotes order votes ↔ ∃ v q, (v, q) ∈ votes ∧ q.role = .arbiter ∧
      (order.findIdx? fun pk => pk = v.pubkey) = some b.priority ∧ b.outcome = q.outcome ∧
      b.pubkey = v.pubkey := by
  obtain ⟨priority, outcome, pubkey⟩ := b
  simp only [rankedVotes, List.mem_filterMap, Prod.exists]
  refine exists_congr fun v => exists_congr fun q => and_congr_right fun _ => ?_
  by_cases hrole : q.role = .arbiter
  · simp only [hrole, ne_eq, not_true_eq_false, if_false, Option.map_eq_some_iff,
      ArbiterVote.mk.injEq, true_and]
    constructor
    · rintro ⟨i, hi, rfl, rfl, rfl⟩
      exact ⟨hi, rfl, rfl⟩
    · rintro ⟨hi, rfl, rfl⟩
      exact ⟨priority, hi, rfl, rfl, rfl⟩
  · simp [hrole]

theorem PooledSlot.argmin (hs : PooledSlot s) (hpooled : s.lock.arbiterPoolShare = some true)
    (hv : ArbiterVoteOf s v q) :
    ∃ order best, arbiterPriorityOrder s = .ok order ∧
      (rankedVotes order (voteEvents s.eventChain)).argmin ArbiterVote.priority = some best ∧
      SlotIs s (some best.outcome) (some best.pubkey) ∧
      ∀ w r, ArbiterVoteOf s w r → ∃ b ∈ rankedVotes order (voteEvents s.eventChain),
        arbiterVotePriority s w.pubkey = .ok (some b.priority) ∧ b.pubkey = w.pubkey := by
  obtain ⟨best, hbest, hslot⟩ := hs.derived hpooled
  obtain ⟨hmem, hrole⟩ := arbiterVoteOf_iff.mp hv
  obtain ⟨order, horder⟩ := order_of_bestArbiterVote hbest hmem hrole
  have hranked (w : ParsedEscrowEvent) (r : VotePayload) (hw : ArbiterVoteOf s w r) :
      ∃ b ∈ rankedVotes order (voteEvents s.eventChain),
        arbiterVotePriority s w.pubkey = .ok (some b.priority) ∧ b.pubkey = w.pubkey := by
    have hplace : ∃ i, arbiterVotePriority s w.pubkey = .ok (some i) := by
      rcases hs.filled w r hw.accepted hw.payload with hseat | ⟨-, -, hplace⟩
      · rw [hw.role] at hseat
        exact ⟨0, arbiterVotePriority_seated horder w.raw.pubkey_ne hseat⟩
      · exact hplace
    obtain ⟨i, hi⟩ := hplace
    obtain ⟨hmem, hrole⟩ := arbiterVoteOf_iff.mp hw
    refine ⟨⟨i, r.outcome, w.pubkey⟩, mem_rankedVotes.mpr ⟨w, r, hmem, hrole, ?_, rfl, rfl⟩,
        hi, rfl⟩
    rw [arbiterVotePriority, horder, ok_bind] at hi
    exact Except.ok.inj hi
  rw [bestArbiterVote_eq_argmin horder, Except.ok.injEq] at hbest
  cases best with
  | none =>
    rw [List.argmin_eq_none] at hbest
    obtain ⟨b, hb, -⟩ := hranked v q hv
    rw [Option.toList_none, List.nil_append] at hbest
    rw [hbest] at hb
    cases hb
  | some best => exact ⟨order, best, horder, hbest, hslot, hranked⟩

theorem PooledSlot.exists_first (hs : PooledSlot s) (hpooled : s.lock.arbiterPoolShare = some true)
    (hv : ArbiterVoteOf s v q) :
    ∃ w r, FirstVote s w r ∧ SlotIs s (some r.outcome) (some w.pubkey) := by
  obtain ⟨order, best, horder, hargmin, hslot, hranked⟩ := hs.argmin hpooled hv
  obtain ⟨w, r, hmem, hrole, hplace, houtcome, hpubkey⟩ :=
    mem_rankedVotes.mp (List.argmin_mem hargmin)
  refine ⟨w, r, ⟨arbiterVoteOf_iff.mpr ⟨hmem, hrole⟩, best.priority, ?_, fun u x hu => ?_⟩, ?_⟩
  · rw [arbiterVotePriority, horder, ok_bind, hplace]
    rfl
  · obtain ⟨b, hb, hi, -⟩ := hranked u x hu
    exact ⟨b.priority, hi, List.le_of_mem_argmin hb hargmin⟩
  · rw [← houtcome, ← hpubkey]
    exact hslot

theorem pubkey_eq_of_place {v w : ParsedEscrowEvent} {i : ℕ}
    (hv : arbiterVotePriority s v.pubkey = .ok (some i))
    (hw : arbiterVotePriority s w.pubkey = .ok (some i)) : v.pubkey = w.pubkey := by
  rw [arbiterVotePriority, bind_eq_ok] at hv hw
  obtain ⟨order, horder, hv⟩ := hv
  obtain ⟨order', horder', hw⟩ := hw
  obtain rfl : order = order' := Except.ok.inj (horder.symm.trans horder')
  obtain ⟨_, hvi, _⟩ := List.findIdx?_eq_some_iff_getElem.mp (pure_eq_ok.mp hv)
  obtain ⟨_, hwi, _⟩ := List.findIdx?_eq_some_iff_getElem.mp (pure_eq_ok.mp hw)
  rw [decide_eq_true_eq] at hvi hwi
  exact hvi.symm.trans hwi

theorem FirstVote.unique (hs : VotesBacked s) {v w : ParsedEscrowEvent} {q r : VotePayload}
    (hv : FirstVote s v q) (hw : FirstVote s w r) : v = w ∧ q = r := by
  obtain ⟨i, hi, hvle⟩ := hv.place
  obtain ⟨j, hj, hwle⟩ := hw.place
  obtain ⟨j', hj', hij⟩ := hvle w r hw.toArbiterVoteOf
  obtain ⟨i', hi', hji⟩ := hwle v q hv.toArbiterVoteOf
  obtain rfl : j = j' := Option.some.inj (Except.ok.inj (hj.symm.trans hj'))
  obtain rfl : i = i' := Option.some.inj (Except.ok.inj (hi.symm.trans hi'))
  obtain rfl : i = j := le_antisymm hij hji
  have hkind {u : ParsedEscrowEvent} {x : VotePayload} (hu : ArbiterVoteOf s u x) :
      u.kind = .vote := by
    rw [ParsedEscrowEvent.kind, hu.payload]
    rfl
  obtain rfl := hs.once v hv.accepted w hw.accepted (hkind hv.toArbiterVoteOf)
    (hkind hw.toArbiterVoteOf) (pubkey_eq_of_place hi hj)
  exact ⟨rfl, by simpa [hv.payload] using hw.payload⟩

theorem Reached.slot_of_first (h : Reached host s) (hpooled : s.lock.arbiterPoolShare = some true)
    (hv : FirstVote s v q) : SlotIs s (some q.outcome) (some v.pubkey) := by
  obtain ⟨w, r, hfirst, hslot⟩ := h.pooledSlot.exists_first hpooled hv.toArbiterVoteOf
  obtain ⟨rfl, rfl⟩ := hfirst.unique h.votesBacked hv
  exact hslot

theorem Reached.slot_of_none (h : Reached host s) (hpooled : s.lock.arbiterPoolShare = some true)
    (hnone : ∀ v q, ¬ ArbiterVoteOf s v q) : SlotIs s none none := by
  obtain ⟨best, hbest, hslot⟩ := h.pooledSlot.derived hpooled
  rw [bestArbiterVote_of_none fun v q hv hrole => hnone v q (arbiterVoteOf_iff.mpr ⟨hv, hrole⟩),
    Except.ok.injEq] at hbest
  subst hbest
  exact hslot

/-! ### Convergence -/

def SameSlot (s t : EscrowState) : Prop :=
  s.votes.get .arbiter = t.votes.get .arbiter ∧ s.actingArbiter = t.actingArbiter

def SameArbiterVotes (s t : EscrowState) : Prop :=
  ∀ v q, ArbiterVoteOf s v q ↔ ArbiterVoteOf t v q

/-- The states that a run continued from `s₀` reaches. -/
def Continues (host : Host) (s₀ : EscrowState) : EscrowState → Prop :=
  Reachable (applyToState host) (· = s₀)

theorem sameSlot_of_order (hs : Reached host s) (ht : Reached host t)
    (hspooled : s.lock.arbiterPoolShare = some true)
    (htpooled : t.lock.arbiterPoolShare = some true)
    (horder : arbiterPriorityOrder s = arbiterPriorityOrder t) (hvotes : SameArbiterVotes s t) :
    SameSlot s t := by
  by_cases hany : ∃ v q, ArbiterVoteOf s v q
  · obtain ⟨v, q, hv⟩ := hany
    obtain ⟨w, r, hfirst, hslot⟩ := hs.pooledSlot.exists_first hspooled hv
    have hplace (pubkey : String) :
        arbiterVotePriority s pubkey = arbiterVotePriority t pubkey := by
      rw [arbiterVotePriority, arbiterVotePriority, horder]
    have hfirst' : FirstVote t w r := by
      obtain ⟨i, hi, hle⟩ := hfirst.place
      refine ⟨(hvotes w r).mp hfirst.toArbiterVoteOf, i, by rw [← hplace, hi], fun u x hu => ?_⟩
      rw [← hplace]
      exact hle u x ((hvotes u x).mpr hu)
    have hslot' := ht.slot_of_first htpooled hfirst'
    exact ⟨hslot.1.trans hslot'.1.symm, hslot.2.trans hslot'.2.symm⟩
  · have hnone : ∀ v q, ¬ ArbiterVoteOf s v q := fun v q hv => hany ⟨v, q, hv⟩
    have hslot := hs.slot_of_none hspooled hnone
    have hslot' := ht.slot_of_none htpooled fun v q hv => hnone v q ((hvotes v q).mpr hv)
    exact ⟨hslot.1.trans hslot'.1.symm, hslot.2.trans hslot'.2.symm⟩

theorem Continues.order {s₀ : EscrowState} (h : Continues host s₀ s) (hreached : Reached host s₀)
    (hpooled : s₀.lock.arbiterPoolShare = some true) :
    Reached host s ∧ s.lock.arbiterPoolShare = some true ∧
      arbiterPriorityOrder s = arbiterPriorityOrder s₀ := by
  refine Reachable.invariant (I := fun s => Reached host s ∧ s.lock.arbiterPoolShare = some true ∧
    arbiterPriorityOrder s = arbiterPriorityOrder s₀) ?_ (fun s e s' hs hstep => ?_) h
  · rintro s rfl
    exact ⟨hreached, hpooled, rfl⟩
  · obtain ⟨hbefore, hshare, horder⟩ := hs
    have hfunded := hbefore.funded (hbefore.hasLock_of_pooled hshare)
    have hstepped := applyToState_stepped hstep
    have hcore := hstepped.pastOpen_core hfunded.not_open
    have hseats := hfunded.seats.step hfunded.not_open hstepped
    refine ⟨hbefore.next hstep, ?_, ?_⟩
    · exact (congrArg CustodyCore.arbiterPoolShare hcore).trans hshare
    · rw [← horder]
      have hid : s'.id = s.id := congrArg (fun c => c.terms.id) hcore
      have hpool : s'.communityArbiters.spread = s.communityArbiters.spread :=
        congrArg CustodyCore.pool hcore
      unfold arbiterPriorityOrder arbiterPriorityOrderFor
      rw [hid, hpool, hseats]

/-- On a trade whose LOCK pools the arbiter's share, the slot holds the accepted arbiter vote of
least index and nothing before the first one, no key has two votes in it, and runs that accepted the
same arbiter votes hold the same slot, be they continued from one funded state or made of different
events under one priority order. -/
theorem pooled_slot_converges (host : Host) :
    (∀ s, Reached host s → s.lock.arbiterPoolShare = some true →
      (∀ v q, FirstVote s v q →
        s.votes.get .arbiter = some q.outcome ∧ s.actingArbiter = some v.pubkey) ∧
      ((∃ v q, ArbiterVoteOf s v q) → ∃ v q, FirstVote s v q) ∧
      ((∀ v q, ¬ ArbiterVoteOf s v q) → s.votes.get .arbiter = none ∧ s.actingArbiter = none) ∧
      ∀ v q w r, ArbiterVoteOf s v q → ArbiterVoteOf s w r → v.pubkey = w.pubkey → v = w) ∧
    (∀ s₀ s t, Reached host s₀ → s₀.lock.arbiterPoolShare = some true → Continues host s₀ s →
      Continues host s₀ t → SameArbiterVotes s t → SameSlot s t) ∧
    ∀ s t, Reached host s → Reached host t → s.lock.arbiterPoolShare = some true →
      t.lock.arbiterPoolShare = some true → arbiterPriorityOrder s = arbiterPriorityOrder t →
        SameArbiterVotes s t → SameSlot s t := by
  refine ⟨fun s hs hpooled => ⟨fun v q =>
      hs.slot_of_first hpooled, ?_, hs.slot_of_none hpooled, ?_⟩,
    fun s₀ s t hs₀ hpooled hs ht hvotes => ?_, fun s t => sameSlot_of_order⟩
  · rintro ⟨v, q, hv⟩
    obtain ⟨w, r, hfirst, -⟩ := hs.pooledSlot.exists_first hpooled hv
    exact ⟨w, r, hfirst⟩
  · intro v q w r hv hw hkeys
    refine hs.votesBacked.once v hv.accepted w hw.accepted ?_ ?_ hkeys
    · rw [ParsedEscrowEvent.kind, hv.payload]
      rfl
    · rw [ParsedEscrowEvent.kind, hw.payload]
      rfl
  · obtain ⟨hsreached, hspooled, hsorder⟩ := hs.order hs₀ hpooled
    obtain ⟨htreached, htpooled, htorder⟩ := ht.order hs₀ hpooled
    exact sameSlot_of_order hsreached htreached hspooled htpooled
        (hsorder.trans htorder.symm) hvotes

def samplePooledLock : ParsedEscrowEvent := sampleEvent '2' 'a' 1800000020 (.lock {
  notesHash := .str "notes"
  shares := .arr ([0, 1, 2].map fun i => .obj [("shareIndex", .num (.ofInt i))])
  sellerReceivesMsats := 1000000
  arbiterFeeMsats := 0
  buyerPubkey := hexKey 'b'
  arbiterPubkey := hexKey 'c'
  arbiterPoolShare := some true
  lockedAt := 1800000020 })

def contestedEvents : List ParsedEscrowEvent := [sampleJoin, samplePooledLock,
  sampleVote '3' 'b' 1800000030 .buyer .release, sampleVote '4' 'a' 1800000040 .seller .refund,
  sampleVote '5' 'c' 1800000050 .arbiter .release]

theorem pooled_slot_converges_sample :
    ∃ s v q, Reached silentHost s ∧ s.lock.arbiterPoolShare = some true ∧ FirstVote s v q ∧
      s.votes.get .arbiter = some q.outcome ∧ s.actingArbiter = some v.pubkey := by
  have hrun : (liveTrade silentHost sampleCreate contestedEvents).any (fun s =>
      s.lock.arbiterPoolShare = some true &&
        (voteEvents s.eventChain).any fun v => v.2.role = .arbiter) = true := by
    decide +kernel
  obtain ⟨s, hs, h⟩ := (Option.any_eq_true _ _).mp hrun
  rw [Bool.and_eq_true, decide_eq_true_eq, List.any_eq_true] at h
  obtain ⟨hpooled, ⟨v, q⟩, hvote, hrole⟩ := h
  have hreached := liveTrade_reached silentHost hs
  have hany : ∃ v q, ArbiterVoteOf s v q := by
    obtain ⟨hv, hq⟩ := mem_voteEvents.mp hvote
    exact ⟨v, q, hv, hq, by simpa using hrole⟩
  obtain ⟨hslot, hfirst, -⟩ := (pooled_slot_converges silentHost).1 s hreached hpooled
  obtain ⟨w, r, hw⟩ := hfirst hany
  exact ⟨s, w, r, hreached, hpooled, hw, hslot w r hw⟩

end ChamaEscrow
