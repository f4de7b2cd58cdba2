import ChamaEscrow.Engine.Conduct
import ChamaEscrow.Js.Monotone
import ChamaEscrow.Trade.ShareWriters

/-!
# Who broke the circle

`rotationConduct` accuses a member who collected and did not lock in a later round of the cycle.  It
asks for a share of that round that was refunded before the round ended, which proves the round
short, but it takes the view's word for it that the member did not lock.

* `broke_iff`: what a view has to show for the mark.
* `conduct_frames_nobody`: no part of a circle's escrows marks a member if and only if no share of a
  round after their payday, other than their own locked one, was refunded early beside a locked
  share of somebody else.
* `hidden_lock_framed`: a member who locked in every round they owed, and a view without their lock.
-/

namespace ChamaEscrow

open Js Library

deriving instance DecidableEq for CircleTerms

variable {escrows view : List EscrowState} {rounds rounds' : RoundShares} {e o : EscrowState}
  {id me anchor : String} {now : JsNumber} {circle : CircleTerms} {conduct : RotationConduct}
  {paydays : List Payday} {host : Host} {s s' : EscrowState} {event : ParsedEscrowEvent}

/-! ### The rounds in view -/

def sharesOf (escrows : List EscrowState) (id : String) : List EscrowState :=
  escrows.filter fun e => isRotationShare e && roundOf e = id

theorem mem_sharesOf : e ∈ sharesOf escrows id ↔
    e ∈ escrows ∧ isRotationShare e = true ∧ roundOf e = id := by
  rw [sharesOf, List.mem_filter, Bool.and_eq_true, decide_eq_true_eq]

variable {shares : List EscrowState}

theorem get_sharesByRound :
    (sharesByRound escrows).get id = some shares ↔ shares = sharesOf escrows id ∧ shares ≠ [] := by
  have hfilter : (escrows.filter isRotationShare).filter (fun e => roundOf e = id)
      = sharesOf escrows id := by
    rw [sharesOf, List.filter_filter]
    exact List.filter_congr fun e _ => Bool.and_comm _ _
  rw [sharesByRound, OrderedMap.get_group, hfilter]

/-- The shares of a round carry its terms and pay its collector: the law of a CREATE, when those of
a round are judged in one context (`roundsAgree_of_reached`). -/
structure RoundsAgree (escrows : List EscrowState) : Prop where
  terms : ∀ a ∈ escrows, ∀ b ∈ escrows, isRotationShare a = true → isRotationShare b = true →
    roundOf a = roundOf b → a.chamaCircle = b.chamaCircle
  seller : ∀ a ∈ escrows, ∀ b ∈ escrows, isRotationShare a = true → isRotationShare b = true →
    roundOf a = roundOf b → a.participants.seller = b.participants.seller

theorem RoundsAgree.mono (h : RoundsAgree escrows) (hsub : view ⊆ escrows) : RoundsAgree view :=
  ⟨fun a ha b hb => h.terms a (hsub ha) b (hsub hb),
    fun a ha b hb => h.seller a (hsub ha) b (hsub hb)⟩

/-! ### The rounds of valid shares -/

variable {cycle : Option ChamaCycleContext}

theorem rotationShare_law {p : CreatePayload} {key pubkey : String} {time : JsNumber}
    {parent : Option CircleView} {witness : Option ShareView}
    {sim : Bool} (hpolicy : p.chamaPolicy = .known .shareV2)
    (h : chamaCreateError host p key pubkey time parent witness cycle sim = .ok none) :
    p.trancheChild = none ∧ ∃ view circle, parent = some view ∧
      circleFromEscrow view = some circle ∧
      p.parent = some view.id ∧ rotationShareError host p pubkey circle cycle = none := by
  have hplain : isPlainCreate p = false := by simp [isPlainCreate, hpolicy]
  rw [chamaCreateError, hplain, if_neg Bool.false_ne_true] at h
  split at h
  · cases h
  rename_i hchecks
  have htranche : p.trancheChild = none := by
    rw [firstProblem_eq_none] at hchecks
    have := hchecks (p.trancheChild.isSome, "Chama forbids trancheChild")
      (by simp [forbiddenChamaFields])
    simpa using this
  refine ⟨htranche, ?_⟩
  split_ifs at h with hcategory hshare
  · rw [circleCreateError, hpolicy] at h
    split at h
    · contradiction
    · cases h
  · rw [hpolicy] at h
    split at h
    · rename_i policy hknown habsent
      obtain rfl := ChamaPolicyField.known.inj hknown
      unfold shareCreateError at h
      split at h
      · rename_i view circle hcircle
        dsimp only at h
        split at h
        · cases h
        rename_i hseating
        rw [or_eq_none, or_eq_none, firstProblem_eq_none] at hseating
        simp only [List.forall_mem_cons] at hseating
        obtain ⟨⟨⟨hparent, -⟩, hseller⟩, -⟩ := hseating
        rw [Option.bind_some] at hcircle
        have hplace : validateCircleRound circle = [] ∧ p.parent = some view.id := by
          simpa using hparent
        exact ⟨view, circle, rfl, hcircle, hplace.2, hseller⟩
      · cases h
    · cases h
  · rw [hpolicy] at h
    split at h <;> cases h

theorem dispatch_join (hcircle : s.chamaCircle.isSome) {p : JoinPayload}
    (hp : event.payload = .join p) : dispatch host s event ≠ .ok s' := by
  intro h
  rw [dispatch, hp] at h
  simp only [handleJoin, bind_eq_ok, guardErr_eq_ok] at h
  obtain ⟨-, hplain, -⟩ := h
  exact hplain hcircle

theorem Handled.seller_eq (h : Handled host s event s') (hjoin : event.kind ≠ .join) :
    s'.participants.seller = s.participants.seller := by
  have kept {next : EscrowState} (clone : IsCopy s next) :
      next.participants.seller = s.participants.seller :=
    congrArg PerRole.seller clone.participants
  cases h
  case planRepeated => rfl
  case seatJoined payload _ _ _ _ _ _ clone =>
    rw [ParsedEscrowEvent.kind, payload] at hjoin
    exact absurd rfl hjoin
  case voted clone count =>
    obtain ⟨votes, acting, rfl⟩ := countVote_eq_ok count
    exact (kept clone :)
  case stalled clone => exact (kept clone :)
  all_goals
    rename_i clone
    exact (kept clone :)

theorem seller_of_circle (hcircle : s.chamaCircle.isSome) (h : applyToState host s event = .ok s') :
    s'.participants.seller = s.participants.seller := by
  have expired {next : EscrowState} (expires : Expires s event next) :
      next.participants.seller = s.participants.seller := by
    obtain ⟨copy, clone, rfl⟩ := expires.eq
    exact congrArg PerRole.seller clone.participants
  cases applyToState_stepped h with
  | echoed => rfl
  | premium _ _ clone => exact congrArg PerRole.seller clone.participants
  | settlement _ _ clone => exact congrArg PerRole.seller clone.participants
  | expired _ expires => exact expired expires
  | handled fresh opened due law handled =>
    refine handled.seller_eq fun hkind => ?_
    obtain ⟨p, hp⟩ : ∃ p, event.payload = .join p := by
      rw [ParsedEscrowEvent.kind] at hkind
      cases hpayload : event.payload with
      | join p => exact ⟨p, rfl⟩
      | _ => rw [hpayload] at hkind; cases hkind
    have hconsensus : event.payload.kind.isConsensus = true := by rw [hp]; rfl
    have hdispatch := applyToState_dispatch hconsensus law fresh opened due
    exact dispatch_join hcircle hp (hdispatch ▸ h)
  | lateHandled fresh kind expires handled =>
    refine (handled.seller_eq fun hkind => ?_).trans (expired expires)
    rcases kind with kind | kind <;> rw [hkind] at kind <;> cases kind

theorem collector_of_law {p : CreatePayload} {author : String} {circle : CircleRound}
    (h : rotationShareError host p author circle cycle = none) :
    ∃ context rot collector, cycle = some context ∧
      rotationFromCycle host context (some (circle.circleId, circle.roundIndex)) = .ok rot ∧
      collectorForRound host rot context.shares circle.roundIndex = some collector ∧
      p.sellerPubkey = some collector := by
  unfold rotationShareError at h
  split at h
  · cases h
  · rename_i context
    split at h
    · cases h
    · rename_i rot hrot
      rw [firstProblem_eq_none] at h
      simp only [List.forall_mem_cons] at h
      obtain ⟨-, hcollector, -⟩ := h
      rw [Bool.or_eq_false_iff, decide_eq_false_iff_not, not_not] at hcollector
      obtain ⟨hsome, hseller⟩ := hcollector
      cases hfound : collectorForRound host rot context.shares circle.roundIndex with
      | none => rw [hfound] at hsome; cases hsome
      | some collector =>
        exact ⟨context, rot, collector, rfl, hrot, hfound, hseller.trans hfound⟩

structure JudgedShare (host : Host) (s : EscrowState) (create : ParsedEscrowEvent) : Prop where
  head : s.eventChain.head? = some create
  judged : ∃ p view circle, create.payload = .create p ∧ create.chamaParent = some view ∧
    circleFromEscrow view = some circle ∧ s.parent = some view.id ∧
    s.chamaCircle = view.chamaCircle ∧ s.participants.seller = p.sellerPubkey ∧
    rotationShareError host p create.pubkey circle create.chamaCycle = none

theorem terms_of_circleFromEscrow {view : CircleView} {circle : CircleRound}
    (h : circleFromEscrow view = some circle) : view.chamaCircle = some circle.toCircleTerms := by
  unfold circleFromEscrow at h
  split_ifs at h
  obtain ⟨terms, hterms, rfl⟩ := Option.map_eq_some_iff.mp h
  exact hterms

theorem JudgedShare.created (h : Created host s) (hpolicy : s.chamaPolicy = some .shareV2) :
    ∃ create, JudgedShare host s create := by
  obtain ⟨e, p, hp, hcreate⟩ := (created_iff host).mp h
  have hborn := handleCreate_newborn hp hcreate
  have hknown : p.chamaPolicy = .known .shareV2 := by
    have hsame := hborn.chamaPolicy.symm.trans hpolicy
    cases hfield : p.chamaPolicy with
    | known policy =>
      rw [hfield] at hsame
      exact congrArg _ (Option.some.inj hsame)
    | _ => rw [hfield] at hsame; cases hsame
  simp only [handleCreate, bind_eq_ok, pure_eq_ok, js_eq_ok, guardNone_eq_ok] at hcreate
  obtain ⟨problem, hlaw, _, rfl, _, -, _, -, _, -, _, -, _, -, _, -, arbiter, -, methods, -, rfl⟩ :=
    hcreate
  obtain ⟨htranche, view, circle, hparent, hcircle, hplace, hseller⟩ :=
    rotationShare_law hknown hlaw
  refine ⟨e, rfl, p, view, circle, hp, hparent, hcircle, hplace, ?_, ?_, hseller⟩
  · change createCircle e p = _
    rw [createCircle, hknown, hparent]
    rfl
  · obtain ⟨_, _, collector, -, -, -, hsome⟩ := collector_of_law hseller
    change (createSeats e p).2.seller = _
    rw [createSeats, htranche]
    dsimp only
    rw [if_pos ⟨by rw [hplace]; rfl, by rw [hsome]; rfl⟩]

theorem JudgedShare.step {create : ParsedEscrowEvent} (hs : JudgedShare host s create)
    (h : applyToState host s event = .ok s') : JudgedShare host s' create := by
  have hstepped := applyToState_stepped h
  obtain ⟨p, view, circle, hp, hparent, hcircle, hplace, hterms, hseller, hlaw⟩ := hs.judged
  have hsome : s.chamaCircle.isSome := by
    rw [hterms, terms_of_circleFromEscrow hcircle]
    rfl
  refine ⟨?_, p, view, circle, hp, hparent, hcircle,
    (congrArg TradeTerms.parent hstepped.terms).trans hplace,
    (congrArg TradeTerms.chamaCircle hstepped.terms).trans hterms,
    (seller_of_circle hsome h).trans hseller, hlaw⟩
  rcases hstepped.eventChain with hsame | hpush
  · rw [hsame]
    exact hs.head
  · rw [hpush, List.head?_append, hs.head]
    rfl

theorem Reached.judgedShare (h : Reached host s) (hpolicy : s.chamaPolicy = some .shareV2) :
    ∃ create, JudgedShare host s create := by
  have hall : s.chamaPolicy = some .shareV2 → ∃ create, JudgedShare host s create := by
    refine Reachable.invariant (I := fun s : EscrowState => s.chamaPolicy = some .shareV2 →
      ∃ create, JudgedShare host s create) (fun s hs => JudgedShare.created hs)
      (fun s e s' ih he hpolicy => ?_) h
    have hsame : s'.chamaPolicy = s.chamaPolicy :=
      congrArg TradeTerms.chamaPolicy (applyToState_stepped he).terms
    obtain ⟨create, hjudged⟩ := ih (hsame.symm.trans hpolicy)
    exact ⟨create, hjudged.step he⟩
  exact hall hpolicy

theorem RoundsAgree.circleOf (h : RoundsAgree escrows) :
    circleOf (sharesByRound escrows) id = some circle ↔
      ∃ e ∈ sharesOf escrows id, e.chamaCircle = some circle := by
  rw [ChamaEscrow.circleOf, Option.bind_eq_some_iff]
  constructor
  · rintro ⟨shares, hshares, hhead⟩
    obtain ⟨rfl, -⟩ := get_sharesByRound.mp hshares
    obtain ⟨first, hfirst, hterms⟩ := Option.bind_eq_some_iff.mp hhead
    exact ⟨first, List.mem_of_mem_head? hfirst, hterms⟩
  · rintro ⟨e, he, hterms⟩
    obtain ⟨first, rest, hcons⟩ := List.exists_cons_of_ne_nil (List.ne_nil_of_mem he)
    refine ⟨_, get_sharesByRound.mpr ⟨rfl, List.ne_nil_of_mem he⟩, ?_⟩
    have hfirst : first ∈ sharesOf escrows id := by
      rw [hcons]
      exact List.mem_cons_self
    obtain ⟨hmem, hshare, hround⟩ := mem_sharesOf.mp he
    obtain ⟨hmem', hshare', hround'⟩ := mem_sharesOf.mp hfirst
    rw [hcons, List.head?_cons, Option.bind_some,
      h.terms first hmem' e hmem hshare' hshare (hround'.trans hround.symm)]
    exact hterms

theorem anchorOf_mono
    (h : ∀ id circle, circleOf rounds id = some circle → circleOf rounds' id = some circle)
    {hops : ℕ} (hanchor : anchorOf rounds hops id = some anchor) :
    anchorOf rounds' hops id = some anchor := by
  induction hops generalizing id with
  | zero => cases hanchor
  | succ hops ih =>
    rw [anchorOf, Option.bind_eq_some_iff] at hanchor ⊢
    obtain ⟨circle, hcircle, hprev⟩ := hanchor
    refine ⟨circle, h id circle hcircle, ?_⟩
    obtain ⟨prev, hsome, hnext⟩ := Option.bind_eq_some_iff.mp hprev
    refine Option.bind_eq_some_iff.mpr ⟨prev, hsome, ?_⟩
    split_ifs at hnext ⊢
    · exact hnext
    · exact ih hnext

/-! ### The verdict -/

structure Accuses (rounds : RoundShares) (paydays : List Payday) (me : String) (now : JsNumber)
    (id : String) (shares : List EscrowState) : Prop where
  paid : ∃ circle anchor, circleOf rounds id = some circle ∧
    anchorOf rounds maxHops id = some anchor ∧
    (∃ p ∈ paydays, p.anchor = some anchor ∧ p.roundIndex < circle.roundIndex) ∧
    circle.fillDeadlineSec ≤ now ∧
    0 < JsNumber.ofInt ((shares.filter fun e => e.hasLock).filter fun e => !isMine me e).length ∧
    JsNumber.ofInt ((shares.filter fun e => e.hasLock).filter fun e => !isMine me e).length
      < circle.seatThreshold ∧
    ∃ e ∈ shares, provesShort circle e = true
  absent : ∀ e ∈ shares, e.hasLock = true → isMine me e = false

theorem judgeRound_broke :
    (judgeRound rounds paydays me now conduct (id, shares)).brokeAtSec.isSome = true ↔
      conduct.brokeAtSec.isSome = true ∨ Accuses rounds paydays me now id shares := by
  unfold judgeRound
  split
  · rename_i circle anchor hcircle hanchor
    have hread {circle' : CircleTerms} {anchor' : String}
        (hc : circleOf rounds id = some circle') (ha : anchorOf rounds maxHops id = some anchor') :
        circle' = circle ∧ anchor' = anchor :=
      ⟨Option.some.inj (hc.symm.trans hcircle), Option.some.inj (ha.symm.trans hanchor)⟩
    dsimp only
    split_ifs with hpaid hmine hevidence
    · refine ⟨Or.inl, fun h => h.resolve_right ?_⟩
      rintro ⟨⟨circle', anchor', hc, ha, ⟨p, hp, hsame, hlt⟩, -⟩, -⟩
      obtain ⟨rfl, rfl⟩ := hread hc ha
      have hany : (paydays.any fun p => p.anchor = some anchor'
          && p.roundIndex < circle'.roundIndex) = true := List.any_eq_true.mpr ⟨p, hp, by simp [hsame, hlt]⟩
      rw [hany] at hpaid
      cases hpaid
    · refine ⟨Or.inl, fun h => h.resolve_right fun haccuses => ?_⟩
      obtain ⟨e, he, hme⟩ := List.any_eq_true.mp hmine
      obtain ⟨hmem, hlock⟩ := List.mem_filter.mp he
      rw [haccuses.absent e hmem hlock] at hme
      cases hme
    · refine ⟨fun _ => Or.inr ⟨⟨circle, anchor, hcircle, hanchor, ?_, hevidence.1, hevidence.2.1,
        hevidence.2.2.1, List.any_eq_true.mp hevidence.2.2.2⟩, fun e he hlock => ?_⟩, fun _ => rfl⟩
      · have hany : (paydays.any fun p => p.anchor = some anchor
            && p.roundIndex < circle.roundIndex) = true := by simpa using hpaid
        obtain ⟨p, hp, hsame⟩ := List.any_eq_true.mp hany
        rw [Bool.and_eq_true, decide_eq_true_eq, decide_eq_true_eq] at hsame
        exact ⟨p, hp, hsame⟩
      · by_contra hme
        exact hmine (List.any_eq_true.mpr
          ⟨e, List.mem_filter.mpr ⟨he, hlock⟩, by simpa using hme⟩)
    · refine ⟨Or.inl, fun h => h.resolve_right ?_⟩
      rintro ⟨⟨circle', anchor', hc, ha, -, hdeadline, hpos, hlt, hshort⟩, -⟩
      obtain ⟨rfl, rfl⟩ := hread hc ha
      exact hevidence ⟨hdeadline, hpos, hlt, List.any_eq_true.mpr hshort⟩
  · rename_i hnone
    refine ⟨Or.inl, fun h => h.resolve_right ?_⟩
    rintro ⟨⟨circle, anchor, hc, ha, -⟩, -⟩
    exact hnone circle anchor hc ha

theorem foldl_judgeRound_broke (l : List (String × List EscrowState)) :
    (l.foldl (judgeRound rounds paydays me now) conduct).brokeAtSec.isSome = true ↔
      conduct.brokeAtSec.isSome = true ∨
        ∃ round ∈ l, Accuses rounds paydays me now round.1 round.2 := by
  induction l generalizing conduct with
  | nil => simp
  | cons round l ih =>
    rw [List.foldl_cons, ih, judgeRound_broke, or_assoc]
    simp

theorem mem_paydays {p : Payday} :
    p ∈ (sharesByRound escrows).entries.filterMap (paydayOf rounds me now) ↔
      ∃ id, sharesOf escrows id ≠ [] ∧
        paydayOf rounds me now (id, sharesOf escrows id) = some p := by
  rw [List.mem_filterMap]
  constructor
  · rintro ⟨⟨id, shares⟩, hmem, hp⟩
    obtain ⟨rfl, hne⟩ := get_sharesByRound.mp ((OrderedMap.get_eq_some_iff _ _ _).mpr hmem)
    exact ⟨id, hne, hp⟩
  · rintro ⟨id, hne, hp⟩
    exact ⟨(id, _), (OrderedMap.get_eq_some_iff _ _ _).mp (get_sharesByRound.mpr ⟨rfl, hne⟩), hp⟩

variable {pubkey : String}

/-- What a view has to show for the mark. -/
theorem broke_iff :
    (rotationConduct escrows pubkey now).brokeAfterCollecting = true ↔
      ∃ id, sharesOf escrows id ≠ [] ∧ Accuses (sharesByRound escrows)
        ((sharesByRound escrows).entries.filterMap
          (paydayOf (sharesByRound escrows) (toLowerCase pubkey) now))
        (toLowerCase pubkey) now id (sharesOf escrows id) := by
  rw [RotationConduct.brokeAfterCollecting, rotationConduct, foldl_judgeRound_broke]
  simp only [Option.isSome_none, Bool.false_eq_true, false_or]
  constructor
  · rintro ⟨⟨id, shares⟩, hmem, haccuses⟩
    obtain ⟨rfl, hne⟩ := get_sharesByRound.mp ((OrderedMap.get_eq_some_iff _ _ _).mpr hmem)
    exact ⟨id, hne, haccuses⟩
  · rintro ⟨id, hne, haccuses⟩
    exact ⟨(id, _), (OrderedMap.get_eq_some_iff _ _ _).mp (get_sharesByRound.mpr ⟨rfl, hne⟩),
      haccuses⟩

/-! ### What frames a member -/

/-- A share of an earlier round of a cycle, which was filled, is over, and paid the member. -/
structure PaidOut (escrows : List EscrowState) (me : String) (now : JsNumber) (anchor : String)
    (index : JsNumber) (s : EscrowState) : Prop where
  share : isRotationShare s = true
  seller : s.participants.seller.map toLowerCase = some me
  terms : ∃ circle, s.chamaCircle = some circle ∧ circle.roundIndex < index ∧
    0 < circle.seatThreshold ∧ circle.seatThreshold ≤ lockedCount (sharesOf escrows (roundOf s)) ∧
    circle.roundEndSec ≤ now
  chained : anchorOf (sharesByRound escrows) maxHops (roundOf s) = some anchor

theorem exists_payday_iff (h : RoundsAgree escrows) {index : JsNumber} :
    (∃ p ∈ (sharesByRound escrows).entries.filterMap (paydayOf (sharesByRound escrows) me now),
        p.anchor = some anchor ∧ p.roundIndex < index) ↔
      ∃ s ∈ escrows, PaidOut escrows me now anchor index s := by
  constructor
  · rintro ⟨p, hp, hanchor, hlt⟩
    obtain ⟨id, hne, hpayday⟩ := mem_paydays.mp hp
    rw [paydayOf, Option.bind_eq_some_iff] at hpayday
    obtain ⟨circle, hcircle, hpayday⟩ := hpayday
    dsimp only at hpayday
    split_ifs at hpayday with hpaid
    obtain rfl := Option.some.inj hpayday
    obtain ⟨hpays, ⟨hpos, hfilled⟩, hover⟩ := hpaid
    obtain ⟨s, hhead, hseller⟩ := Option.bind_eq_some_iff.mp hpays
    have hs := List.mem_of_mem_head? hhead
    obtain ⟨hmem, hshare, rfl⟩ := mem_sharesOf.mp hs
    obtain ⟨e, he, hterms⟩ := h.circleOf.mp hcircle
    obtain ⟨hemem, heshare, heround⟩ := mem_sharesOf.mp he
    have hsame := h.terms s hmem e hemem hshare heshare heround.symm
    exact ⟨s, hmem, hshare, hseller, ⟨circle, hsame.trans hterms, hlt, hpos, hfilled, hover⟩,
      hanchor⟩
  · rintro ⟨s, hmem, hshare, hseller, ⟨circle, hterms, hlt, hpos, hfilled, hover⟩, hchained⟩
    have hs : s ∈ sharesOf escrows (roundOf s) := mem_sharesOf.mpr ⟨hmem, hshare, rfl⟩
    have hcircle := h.circleOf.mpr ⟨s, hs, hterms⟩
    refine ⟨⟨some anchor, circle.roundIndex⟩,
      mem_paydays.mpr ⟨roundOf s, List.ne_nil_of_mem hs, ?_⟩, rfl, hlt⟩
    obtain ⟨first, rest, hcons⟩ := List.exists_cons_of_ne_nil (List.ne_nil_of_mem hs)
    have hfirst : first ∈ sharesOf escrows (roundOf s) := by
      rw [hcons]
      exact List.mem_cons_self
    obtain ⟨hfmem, hfshare, hfround⟩ := mem_sharesOf.mp hfirst
    have hpays : ((sharesOf escrows (roundOf s)).head?.bind fun e =>
        e.participants.seller.map toLowerCase) = some me := by
      rw [hcons, List.head?_cons, Option.bind_some,
        h.seller first hfmem s hmem hfshare hshare hfround]
      exact hseller
    rw [paydayOf, hcircle, Option.bind_some]
    dsimp only
    rw [if_pos ⟨hpays, ⟨hpos, hfilled⟩, hover⟩, hchained]

/-- A share that was refunded early beside a locked one of somebody else, neither of them the locked
share of the member, in a round after the member's payday. -/
structure Framing (escrows : List EscrowState) (me : String) (now : JsNumber) (o e : EscrowState) :
    Prop where
  shares : isRotationShare o = true ∧ isRotationShare e = true
  round : roundOf o = roundOf e
  others : isMine me o = false ∧ o.hasLock = true
  visible : e.hasLock = true → isMine me e = false
  short : ∃ circle, e.chamaCircle = some circle ∧ provesShort circle e = true ∧
    circle.fillDeadlineSec ≤ now ∧ 1 < circle.seatThreshold ∧
    ∃ anchor, anchorOf (sharesByRound escrows) maxHops (roundOf e) = some anchor ∧
      ∃ s ∈ escrows, PaidOut escrows me now anchor circle.roundIndex s

theorem ofInt_mono {m n : ℕ} (h : m ≤ n) : JsNumber.ofInt m ≤ .ofInt n := by
  change JsNumber.ofRat ((m : ℤ) : ℚ) ≤ JsNumber.ofRat ((n : ℤ) : ℚ)
  exact JsNumber.ofRat_mono (by exact_mod_cast h)

theorem sharesOf_subperm (hsub : view.Subperm escrows) (id : String) :
    (sharesOf view id).Subperm (sharesOf escrows id) :=
  hsub.filter _

theorem exists_framing (h : RoundsAgree escrows) (hsub : view.Subperm escrows)
    (hbroke : (rotationConduct view pubkey now).brokeAfterCollecting = true) :
    ∃ o ∈ escrows, ∃ e ∈ escrows, Framing escrows (toLowerCase pubkey) now o e := by
  have hview := h.mono hsub.subset
  have hcircles (id : String) (circle : CircleTerms)
      (hc : circleOf (sharesByRound view) id = some circle) :
      circleOf (sharesByRound escrows) id = some circle := by
    obtain ⟨e, he, hterms⟩ := hview.circleOf.mp hc
    exact h.circleOf.mpr ⟨e, (sharesOf_subperm hsub id).subset he, hterms⟩
  obtain ⟨id, -, ⟨circle, anchor, hcircle, hanchor, hpaid, hdeadline, hpos, hlt, e, he, hshort⟩,
    habsent⟩ := broke_iff.mp hbroke
  have hothers : ((sharesOf view id).filter fun e => e.hasLock).filter
      (fun e => !isMine (toLowerCase pubkey) e) ≠ [] := by
    rintro hnil
    rw [hnil] at hpos
    exact absurd hpos (by decide)
  obtain ⟨o, ho⟩ := List.exists_mem_of_ne_nil _ hothers
  rw [List.mem_filter, List.mem_filter, Bool.not_eq_true'] at ho
  obtain ⟨⟨hoview, hlock⟩, hother⟩ := ho
  obtain ⟨homem, hoshare, horound⟩ := mem_sharesOf.mp hoview
  obtain ⟨hemem, heshare, heround⟩ := mem_sharesOf.mp he
  obtain ⟨s, hs, hspaid⟩ := (exists_payday_iff hview).mp hpaid
  refine ⟨o, hsub.subset homem, e, hsub.subset hemem, ⟨hoshare, heshare⟩,
    horound.trans heround.symm, ⟨hother, hlock⟩, habsent e he, circle, ?_, hshort, hdeadline, ?_,
    anchor, ?_, s, hsub.subset hs, hspaid.share, hspaid.seller, ?_, ?_⟩
  · obtain ⟨x, hx, hterms⟩ := hview.circleOf.mp hcircle
    obtain ⟨hxmem, hxshare, hxround⟩ := mem_sharesOf.mp hx
    rw [hview.terms e hemem x hxmem heshare hxshare (heround.trans hxround.symm)]
    exact hterms
  · have hone : (1 : JsNumber) ≤ .ofInt _ := ofInt_mono (List.length_pos_iff.mpr hothers)
    exact JsNumber.lt_of_le_of_lt hone hlt
  · rw [heround]
    exact anchorOf_mono hcircles hanchor
  · obtain ⟨terms, hterms, hindex, hthreshold, hfilled, hover⟩ := hspaid.terms
    exact ⟨terms, hterms, hindex, hthreshold, JsNumber.le_trans hfilled
      (ofInt_mono ((sharesOf_subperm hsub _).filter _).length_le), hover⟩
  · exact anchorOf_mono hcircles hspaid.chained

/-! ### The view that frames -/

def framingShares (o e : EscrowState) : List EscrowState := if e.hasLock then [e] else [o, e]

def framingView (escrows : List EscrowState) (o e : EscrowState) : List EscrowState :=
  escrows.filter (fun x => !(isRotationShare x && roundOf x = roundOf e)) ++ framingShares o e

theorem mem_framingShares {x : EscrowState} (h : x ∈ framingShares o e) : x = o ∨ x = e := by
  unfold framingShares at h
  split_ifs at h
  · exact Or.inr (List.mem_singleton.mp h)
  · simpa using h

theorem refunded_mem_framingShares : e ∈ framingShares o e := by
  unfold framingShares
  split_ifs <;> simp

theorem Framing.mem (h : Framing escrows me now o e) {x : EscrowState}
    (hx : x ∈ framingShares o e) : isRotationShare x = true ∧ roundOf x = roundOf e := by
  rcases mem_framingShares hx with rfl | rfl
  · exact ⟨h.shares.1, h.round⟩
  · exact ⟨h.shares.2, rfl⟩

theorem Framing.subperm (h : Framing escrows me now o e) (ho : o ∈ escrows) (he : e ∈ escrows) :
    (framingView escrows o e).Subperm escrows := by
  have hchosen : (framingShares o e).Subperm (sharesOf escrows (roundOf e)) := by
    refine List.subperm_of_subset ?_ fun x hx => ?_
    · unfold framingShares
      split_ifs with hlock
      · exact List.nodup_singleton e
      · have hne : o ≠ e := by
          rintro rfl
          exact hlock h.others.2
        simpa using hne
    · obtain ⟨hshare, hround⟩ := h.mem hx
      refine mem_sharesOf.mpr ⟨?_, hshare, hround⟩
      rcases mem_framingShares hx with rfl | rfl
      · exact ho
      · exact he
  refine (List.Subperm.append (List.Subperm.refl _) hchosen).trans (List.Perm.subperm ?_)
  exact List.perm_append_comm.trans (List.filter_append_perm _ escrows)

theorem Framing.sharesOf_same (h : Framing escrows me now o e) :
    sharesOf (framingView escrows o e) (roundOf e) = framingShares o e := by
  rw [sharesOf, framingView, List.filter_append, List.filter_filter]
  have hnone : escrows.filter (fun x => (isRotationShare x && decide (roundOf x = roundOf e))
      && !(isRotationShare x && decide (roundOf x = roundOf e))) = [] :=
    List.filter_eq_nil_iff.mpr fun x _ => by simp
  rw [hnone, List.nil_append, List.filter_eq_self]
  intro x hx
  obtain ⟨hshare, hround⟩ := h.mem hx
  rw [hshare, hround]
  exact decide_eq_true rfl

theorem Framing.sharesOf_other (h : Framing escrows me now o e) (hid : id ≠ roundOf e) :
    sharesOf (framingView escrows o e) id = sharesOf escrows id := by
  rw [sharesOf, framingView, List.filter_append, List.filter_filter]
  have hnone : (framingShares o e).filter (fun x => isRotationShare x && decide (roundOf x = id))
      = [] := by
    refine List.filter_eq_nil_iff.mpr fun x hx => ?_
    rw [(h.mem hx).2, decide_eq_false hid.symm, Bool.and_false]
    exact Bool.false_ne_true
  rw [hnone, List.append_nil, sharesOf]
  refine List.filter_congr fun x _ => ?_
  by_cases hround : roundOf x = id
  · have hne : roundOf x ≠ roundOf e := hround ▸ hid
    simp [hround, hid]
  · simp [hround]

theorem Framing.others_length (h : Framing escrows me now o e) :
    (((framingShares o e).filter fun x => x.hasLock).filter fun x => !isMine me x).length
      = 1 := by
  unfold framingShares
  split_ifs with hlock
  · simp [hlock, h.visible hlock]
  · simp [hlock, h.others.1, h.others.2]

/-- It marks the member. -/
theorem framed (h : RoundsAgree escrows) (ho : o ∈ escrows) (he : e ∈ escrows)
    (hf : Framing escrows (toLowerCase pubkey) now o e) :
    (rotationConduct (framingView escrows o e) pubkey now).brokeAfterCollecting = true := by
  have hsub := hf.subperm ho he
  have hview := h.mono hsub.subset
  obtain ⟨circle, hterms, hshort, hdeadline, hthreshold, anchor, hanchor, s, hs, hpaid⟩ := hf.short
  have hcircles (id : String) (terms : CircleTerms)
      (hc : circleOf (sharesByRound escrows) id = some terms) :
      circleOf (sharesByRound (framingView escrows o e)) id = some terms := by
    obtain ⟨x, hx, hxterms⟩ := h.circleOf.mp hc
    by_cases hid : id = roundOf e
    · subst hid
      obtain ⟨hxmem, hxshare, hxround⟩ := mem_sharesOf.mp hx
      refine hview.circleOf.mpr ⟨e, hf.sharesOf_same ▸ refunded_mem_framingShares, ?_⟩
      rw [h.terms e he x hxmem hf.shares.2 hxshare hxround.symm]
      exact hxterms
    · exact hview.circleOf.mpr ⟨x, hf.sharesOf_other hid ▸ hx, hxterms⟩
  obtain ⟨terms, hsterms, hindex, hpos, hfilled, hover⟩ := hpaid.terms
  have hid : roundOf s ≠ roundOf e := by
    intro hround
    have hsame := h.terms s hs e he hpaid.share hf.shares.2 hround
    obtain rfl := Option.some.inj (hsterms.symm.trans (hsame.trans hterms))
    exact JsNumber.not_lt_of_le (JsNumber.le_of_lt hindex) hindex
  have hpaidView : PaidOut (framingView escrows o e) (toLowerCase pubkey) now anchor
      circle.roundIndex s := by
    refine ⟨hpaid.share, hpaid.seller, ⟨terms, hsterms, hindex, hpos, ?_, hover⟩,
      anchorOf_mono hcircles hpaid.chained⟩
    rw [hf.sharesOf_other hid]
    exact hfilled
  have hsview : s ∈ framingView escrows o e := by
    refine List.mem_append_left _ (List.mem_filter.mpr ⟨hs, ?_⟩)
    rw [decide_eq_false hid, Bool.and_false]
    rfl
  refine broke_iff.mpr ⟨roundOf e, ?_, ⟨circle, anchor,
    hcircles _ circle (h.circleOf.mpr ⟨e, mem_sharesOf.mpr ⟨he, hf.shares.2, rfl⟩, hterms⟩),
    anchorOf_mono hcircles hanchor, (exists_payday_iff hview).mpr ⟨s, hsview, hpaidView⟩,
    hdeadline, ?_, ?_, e, ?_, hshort⟩, ?_⟩
  all_goals rw [hf.sharesOf_same]
  · exact List.ne_nil_of_mem refunded_mem_framingShares
  · rw [hf.others_length]
    decide
  · rw [hf.others_length]
    exact hthreshold
  · exact refunded_mem_framingShares
  · intro x hx hlock
    rcases mem_framingShares hx with rfl | rfl
    · exact hf.others.1
    · exact hf.visible hlock

/-- Part of the escrows of a circle can be shown so that a member is marked if and only if a share
of a round after their payday, other than their own locked one, was refunded early beside a locked
share of somebody else.  Whether the member locked has no part in it. -/
theorem conduct_frames_nobody {escrows : List EscrowState} {pubkey : String} {now : JsNumber}
    (h : RoundsAgree escrows) :
    (∀ view : List EscrowState, view.Subperm escrows →
        (rotationConduct view pubkey now).brokeAfterCollecting = false) ↔
      ∀ o ∈ escrows, ∀ e ∈ escrows, ¬ Framing escrows (toLowerCase pubkey) now o e := by
  constructor
  · intro hspared o ho e he hf
    have hmarked := framed h ho he hf
    rw [hspared _ (hf.subperm ho he)] at hmarked
    cases hmarked
  · intro hnone view hsub
    by_contra hbroke
    obtain ⟨o, ho, e, he, hf⟩ := exists_framing h hsub (Bool.not_eq_false _ ▸ hbroke)
    exact hnone o ho e he hf

/-! ### A member whose lock is out of view -/

def thirdRoundId : String := "d986609c73d39c25d9dcc7c005b00520ccfe01bdfeae2875adfda62400c2ea90"

def memberShareId : ℕ → Char → String
  | 2, 'a' => "b098e8a0fd15cc0aca914fbf70d0e19ae450b70639a028046ea1ed0e1f96912a"
  | 2, 'c' => "7d13a8e1ff593567c66667d6c1b78a12e0d94d2d4127bc0456e3641170ba0a46"
  | 2, _ => sampleShareId
  | _, 'b' => "ce4dec88770ec3e79dc7504fd7cb302806e42b0f4488f39f45f50532ca7cb6b8"
  | _, _ => "3e3b22ea351e0e0d1a26d89bd10609ee4e0401d0e9729572f2b2a72a0c7cf00a"

def laterRoundId (r : ℕ) : String := if r = 2 then sampleRoundId else thirdRoundId

def shareIdText (r : ℕ) (member : Char) : String :=
  "[\"chama-share-v1\",\"" ++ laterRoundId r ++ "\",\"" ++ hexKey member ++ "\","
    ++ (if r = 2 then "2" else "3") ++ "]"

/-- The host of the sample circle, with the digests of its later rounds. -/
def cycleHost : Host :=
  { circleHost with
    sha256Hex := fun text =>
      if text = "[\"chama-round-v2\",\"sm_circle\",3]" then thirdRoundId
      else match [(2, 'a'), (2, 'c'), (3, 'b'), (3, 'd')].find? fun (r, member) =>
          text = shareIdText r member with
        | some (r, member) => memberShareId r member
        | none => circleHost.sha256Hex text }

def laterRound (r : ℕ) : CircleView :=
  let round := if r = 2 then sampleRound sampleRoundId 1800007200 2 (some "sm_circle")
    else sampleRound thirdRoundId 1800014400 3 (some sampleRoundId)
  { round with chamaCircle := round.chamaCircle.map fun terms => { terms with seatCap := some 3 } }

def laterStart (r : ℕ) : ℕ := 1800000000 + 7200 * (r - 1)

/-- The locked shares of the second round as its readers hold them: `c` was the fastest. -/
def secondRoundSeats : List ShareView :=
  [('c', 200), ('d', 300), ('a', 400)].map fun (member, time) => {
    sampleSeat member (laterStart 2 + time) with
    id := memberShareId 2 member
    chamaPolicy := some .shareV2
    parent := some sampleRoundId }

def memberEvent (r : ℕ) (member id author : Char) (after : ℕ) (payload : EscrowPayload) :
    ParsedEscrowEvent :=
  { sampleEvent id author (laterStart r + after) payload with escrowId := memberShareId r member }

def laterCollector (r : ℕ) : Char := if r = 2 then 'b' else 'c'

def memberCreate (r : ℕ) (member : Char) : ParsedEscrowEvent :=
  { memberEvent r member '0' member 100 (.create {
      description := "circle"
      amountMsats := 1000000
      category := "chama-share"
      chamaPolicy := .known .shareV2
      mintUrl := "https://mint"
      platformFeeBps := 0
      platformFeePubkey := hexKey 'e'
      expirySeconds := 7100
      communityArbiters := .arr [.str (hexKey 'f')]
      parent := some (laterRoundId r)
      sellerPubkey := some (hexKey (laterCollector r))
      createdAt := .ofInt (laterStart r + 100) }) with
    chamaParent := some (laterRound r)
    chamaCycle := some (sampleCycle (sampleSeats ++ secondRoundSeats)) }

def memberLock (r : ℕ) (member : Char) (after : ℕ) : ParsedEscrowEvent :=
  memberEvent r member '1' member after (.lock {
    notesHash := .str "notes"
    sharePolicy := .str "holder-only-v1"
    arbiterPoolShare := some true
    shares := .arr ([member, laterCollector r, 'f'].zipIdx.map fun (holder, i) =>
        .obj [("shareIndex", .num (.ofInt i)),
      ("encryptedFor", .obj [(hexKey holder, .str "sealed")])])
    sellerReceivesMsats := 1000000
    arbiterFeeMsats := 0
    buyerPubkey := hexKey member
    arbiterPubkey := hexKey 'f'
    lockedAt := .ofInt (laterStart r + after) })

/-- The refund of the share of `d` in the third round, past its fill deadline. -/
def memberRefund : List ParsedEscrowEvent := [
  memberEvent 3 'd' '2' 'd' 3700
    (.vote { outcome := .refund, role := .buyer, votedAt := .ofInt (laterStart 3 + 3700) }),
  memberEvent 3 'd' '3' 'c' 3800
    (.vote { outcome := .refund, role := .seller, votedAt := .ofInt (laterStart 3 + 3800) }),
  memberEvent 3 'd' '4' 'd' 3900 (.resolve {
    outcome := .refund
    majority := [some .buyer, some .seller]
    fillEvidence := sampleEvidence ['b', 'd']
    resolvedAt := .ofInt (laterStart 3 + 3900) })]

def sampleCircle : List EscrowState :=
  [(memberCreate 2 'c', [memberLock 2 'c' 200]), (memberCreate 2 'd', [memberLock 2 'd' 300]),
    (memberCreate 2 'a', [memberLock 2 'a' 400]), (memberCreate 3 'b', [memberLock 3 'b' 200]),
    (memberCreate 3 'd', memberLock 3 'd' 300 :: memberRefund)].filterMap fun (create, events) =>
      liveTrade cycleHost create events

theorem sampleCircle_reached : ∀ e ∈ sampleCircle, Reached cycleHost e := by
  intro e he
  obtain ⟨run, -, hrun⟩ := List.mem_filterMap.mp he
  exact liveTrade_reached cycleHost hrun

/-- A member who locked in each round whose shares pay somebody else. -/
def LocksWhereOwed (escrows : List EscrowState) (me : String) : Prop :=
  ∀ e ∈ escrows, isRotationShare e = true → e.participants.seller.map toLowerCase ≠ some me →
    ∃ o ∈ escrows, isRotationShare o = true ∧ roundOf o = roundOf e ∧ isMine me o = true ∧
      o.hasLock = true

instance {me : String} : Decidable (LocksWhereOwed escrows me) :=
  inferInstanceAs (Decidable (∀ _ ∈ escrows, _))

instance : Decidable (RoundsAgree escrows) :=
  decidable_of_iff ((∀ a ∈ escrows, ∀ b ∈ escrows, isRotationShare a = true →
      isRotationShare b = true → roundOf a = roundOf b → a.chamaCircle = b.chamaCircle) ∧
    ∀ a ∈ escrows, ∀ b ∈ escrows, isRotationShare a = true → isRotationShare b = true →
      roundOf a = roundOf b → a.participants.seller = b.participants.seller)
    ⟨fun h => ⟨h.1, h.2⟩, fun h => ⟨h.terms, h.seller⟩⟩

theorem filterMap_liveTrade (create : ParsedEscrowEvent) (es : List ParsedEscrowEvent) (runs) :
    ((create, es) :: runs).filterMap (fun (create, es) => liveTrade cycleHost create es) =
      (liveTrade cycleHost create es).toList ++
        runs.filterMap fun (create, es) => liveTrade cycleHost create es := by
  cases h : liveTrade cycleHost create es <;> simp [h]

/-- The circle in which `b` collected the second round and locked in the third, which `a` left
short: the view without the lock of `b`, and the one from before the share of `d`. -/
theorem sampleCircle_spec : RoundsAgree sampleCircle ∧ LocksWhereOwed sampleCircle (hexKey 'b') ∧
    (rotationConduct (sampleCircle.filter fun e => !isMine (hexKey 'b') e) (hexKey 'b')
      1800018300).brokeAfterCollecting = true ∧
    (rotationConduct (sampleCircle.take 4) (hexKey 'b') 1800018300).collectedRounds = 1 ∧
    ∀ e ∈ sampleCircle.take 4, e.resolvedOutcome ≠ some .refund := by
  -- The law is evaluated apart from the rest of each run.
  have hsecond : ∀ m ∈ ['c', 'd', 'a'], LawfulCreate cycleHost (memberCreate 2 m) := by
    rintro m hm p ⟨⟩
    revert m
    rw [List.forall_mem_cons, List.forall_mem_cons, List.forall_mem_singleton]
    decide +kernel
  have hthird : ∀ m ∈ ['b', 'd'], LawfulCreate cycleHost (memberCreate 3 m) := by
    rintro m hm p ⟨⟩
    revert m
    rw [List.forall_mem_cons, List.forall_mem_singleton]
    decide +kernel
  rw [sampleCircle, filterMap_liveTrade, filterMap_liveTrade, filterMap_liveTrade,
    filterMap_liveTrade, filterMap_liveTrade, List.filterMap_nil,
    liveTrade, applyEvent, handleCreate, hsecond 'c' (by decide) _ rfl,
    liveTrade, applyEvent, handleCreate, hsecond 'd' (by decide) _ rfl,
    liveTrade, applyEvent, handleCreate, hsecond 'a' (by decide) _ rfl,
    liveTrade, applyEvent, handleCreate, hthird 'b' (by decide) _ rfl,
    liveTrade, applyEvent, handleCreate, hthird 'd' (by decide) _ rfl]
  · decide +kernel
  all_goals rfl

/-- A view without the share that the member did lock marks them. -/
theorem hidden_lock_framed :
    ∃ escrows view : List EscrowState, (∀ e ∈ escrows, Reached cycleHost e) ∧
      RoundsAgree escrows ∧ LocksWhereOwed escrows (hexKey 'b') ∧ view.Sublist escrows ∧
      (rotationConduct view (hexKey 'b') 1800018300).brokeAfterCollecting = true :=
  ⟨sampleCircle, _, sampleCircle_reached, sampleCircle_spec.1, sampleCircle_spec.2.1,
    List.filter_sublist, sampleCircle_spec.2.2.1⟩

/-- Before a share of the third round is refunded, no view marks the collector of the second. -/
theorem unrefunded_circle_spared :
    ∃ escrows : List EscrowState, (∀ e ∈ escrows, Reached cycleHost e) ∧
      (rotationConduct escrows (hexKey 'b') 1800018300).collectedRounds = 1 ∧
      ∀ view : List EscrowState, view.Subperm escrows →
        (rotationConduct view (hexKey 'b') 1800018300).brokeAfterCollecting = false := by
  obtain ⟨hagree, -, -, hcollected, hopen⟩ := sampleCircle_spec
  refine ⟨sampleCircle.take 4, fun e he => sampleCircle_reached e (List.mem_of_mem_take he),
    hcollected, (conduct_frames_nobody (hagree.mono (List.take_subset 4 _))).mpr
      fun o _ e he hf => ?_⟩
  obtain ⟨circle, -, hshort, -⟩ := hf.short
  rw [provesShort, Bool.and_eq_true, decide_eq_true_eq] at hshort
  exact hopen e he hshort.1

end ChamaEscrow
