import ChamaEscrow.Engine.Storefront
import ChamaEscrow.Js.Quotient
import ChamaEscrow.Library.FirstFit
import ChamaEscrow.Trade.Lifecycle
import Mathlib.Data.Finset.Dedup
import Mathlib.Data.Finset.Insert

/-!
# The stock of a storefront

The three passes of `storefront.ts` over the purchases of a listing.  The pass that reports the
oversold ones is a first-fit pass in the order of the LOCKs; its sums are doubles, so it keeps to
the stock below `2^53` and loses single units from there on.

* `storefront_never_overdelivers`: the passes agree with the stock on every list of children exactly
  when the stock is below `2^53`, or nothing can match the listing.
* `overcommitted_order_free`: who is oversold does not depend on the order of the list if and only
  if the children with one lock time that would each fit, fit together.
-/

namespace ChamaEscrow

open Js Library

variable {parent child : EscrowState} {children : List EscrowState}

/-! ### Units -/

def childUnits (child : EscrowState) : ℕ := (childClaim child).toNat?.getD 0

theorem childClaim_eq (child : EscrowState) : childClaim child = .fin (childUnits child : ℚ) := by
  have hclaim : ∃ n, (childClaim child).toNat? = some n := by
    rw [childClaim]
    cases hq : child.claimedQuantity.filter fun q => q.isInteger && 0 < q with
    | none => exact ⟨1, rfl⟩
    | some q =>
      have hcheck := (Option.filter_eq_some_iff.mp hq).2
      rw [Bool.and_eq_true, decide_eq_true_eq] at hcheck
      obtain ⟨hinteger, hpos⟩ := hcheck
      cases q with
      | fin q =>
        rw [JsNumber.zero_eq_fin, JsNumber.fin_lt_fin] at hpos
        have hnum : 0 ≤ q.num := Rat.num_nonneg.mpr hpos.le
        exact ⟨q.num.toNat, if_pos ⟨of_decide_eq_true hinteger, hnum⟩⟩
      | _ => cases hinteger
  obtain ⟨n, hn⟩ := hclaim
  rw [childUnits, hn, Option.getD_some]
  exact JsNumber.toNat?_eq_some hn

/-! ### The children that match -/

def matchesListing (parent child : EscrowState) : Bool :=
  child.parent = some parent.id && (storefrontChildMismatches parent child).toOption = some []

def PoolsRead (parent : EscrowState) (children : List EscrowState) : Prop :=
  ∀ c ∈ children, c.parent = some parent.id → judgedElsewhere parent c = false →
    (∃ text, poolText c.communityArbiters = .ok text) ∧
      ∃ text, poolText parent.communityArbiters = .ok text

theorem mismatches_ok_iff (hparent : child.parent = some parent.id) :
    (∃ mismatches, storefrontChildMismatches parent child = .ok mismatches) ↔
      (judgedElsewhere parent child = false →
        (∃ text, poolText child.communityArbiters = .ok text) ∧
          ∃ text, poolText parent.communityArbiters = .ok text) := by
  rw [storefrontChildMismatches]
  cases hjudged : judgedElsewhere parent child with
  | true =>
    rw [if_pos (Or.inr rfl)]
    exact ⟨fun _ => nofun, fun _ => ⟨[], rfl⟩⟩
  | false =>
    rw [if_neg (by simp [hparent])]
    simp only [bind_eq_ok, pure_eq_ok, forall_const]
    constructor
    · rintro ⟨_, text, htext, text', htext', -⟩
      exact ⟨⟨text, htext⟩, ⟨text', htext'⟩⟩
    · rintro ⟨⟨text, htext⟩, ⟨text', htext'⟩⟩
      exact ⟨_, text, htext, text', htext', rfl⟩

theorem filter_matchesListing_cons (hparent : child.parent = some parent.id)
    {mismatches : List String} (hcheck : storefrontChildMismatches parent child = .ok mismatches) :
    (child :: children).filter (matchesListing parent) =
      if mismatches.isEmpty then child :: children.filter (matchesListing parent)
      else children.filter (matchesListing parent) := by
  have hmatches : matchesListing parent child = mismatches.isEmpty := by
    rw [matchesListing, hcheck, decide_eq_true hparent, Bool.true_and]
    cases mismatches with
    | nil => rfl
    | cons text rest => exact decide_eq_false fun h => List.cons_ne_nil _ _ (Option.some.inj h)
  rw [List.filter_cons, hmatches]

variable {matching : List EscrowState}

theorem matchingChildren_eq_ok :
    matchingChildren parent children = .ok matching ↔
      PoolsRead parent children ∧ matching = children.filter (matchesListing parent) := by
  induction children generalizing matching with
  | nil =>
    rw [matchingChildren, List.filter_nil, Except.ok.injEq]
    exact ⟨fun h => ⟨fun c hc => absurd hc List.not_mem_nil, h.symm⟩, fun h => h.2.symm⟩
  | cons c rest ih =>
    have hpools : PoolsRead parent (c :: rest) ↔
        PoolsRead parent [c] ∧ PoolsRead parent rest := by
      unfold PoolsRead
      rw [List.forall_mem_cons, List.forall_mem_singleton]
    rw [matchingChildren, hpools]
    by_cases hnames : c.parent = some parent.id
    · rw [if_neg (not_not.mpr hnames)]
      have hone : PoolsRead parent [c] ↔
          ∃ mismatches, storefrontChildMismatches parent c = .ok mismatches := by
        rw [mismatches_ok_iff hnames, PoolsRead, List.forall_mem_singleton]
        exact ⟨fun h => h hnames, fun h _ => h⟩
      simp only [bind_eq_ok, pure_eq_ok]
      constructor
      · rintro ⟨mismatches, hcheck, tail, htail, rfl⟩
        obtain ⟨hrest, rfl⟩ := ih.mp htail
        exact ⟨⟨hone.mpr ⟨mismatches, hcheck⟩, hrest⟩,
          (filter_matchesListing_cons hnames hcheck).symm⟩
      · rintro ⟨⟨hc, hrest⟩, rfl⟩
        obtain ⟨mismatches, hcheck⟩ := hone.mp hc
        exact ⟨mismatches, hcheck, _, ih.mpr ⟨hrest, rfl⟩,
          (filter_matchesListing_cons hnames hcheck).symm⟩
    · rw [if_pos hnames, ih, List.filter_cons_of_neg (by simp [matchesListing, hnames])]
      refine and_congr_left fun _ => (and_iff_right ?_).symm
      rw [PoolsRead, List.forall_mem_singleton]
      exact fun h => absurd h hnames

/-! ### The sums -/

/-- The units of some children, summed up as `sumClaims` does. -/
def claimSum (start : JsNumber) (children : List EscrowState) : JsNumber :=
  (children.map childClaim).foldl (· + ·) start

theorem claimSum_cons (start : JsNumber) (child : EscrowState) (children : List EscrowState) :
    claimSum start (child :: children) = claimSum (start + childClaim child) children := rfl

/-- A sum that can be compared and does not go below zero. -/
structure Counted (a : JsNumber) : Prop where
  double : a.isDouble = true
  nonneg : 0 ≤ a

variable {a : JsNumber}

theorem Counted.ne_nan (h : Counted a) : a ≠ .nan :=
  (JsNumber.ne_nan_of_le h.nonneg).2

theorem counted_zero : Counted 0 := ⟨by decide, by decide⟩

theorem Counted.add_claim (h : Counted a) (child : EscrowState) :
    a ≤ a + childClaim child ∧ Counted (a + childClaim child) := by
  have hle : a ≤ a + childClaim child := by
    rw [childClaim_eq]
    exact JsNumber.le_add_fin h.ne_nan h.double (Nat.cast_nonneg _)
  exact ⟨hle, JsNumber.isDouble_add _ _, JsNumber.le_trans h.nonneg hle⟩

theorem Counted.claimSum (h : Counted a) (children : List EscrowState) :
    Counted (claimSum a children) := by
  induction children generalizing a with
  | nil => exact h
  | cons c rest ih =>
    rw [claimSum_cons]
    exact ih (h.add_claim c).2

theorem claimSum_mono {p q : EscrowState → Bool} (hpq : ∀ c, p c = true → q c = true)
    (children : List EscrowState) {a b : JsNumber} (ha : Counted a) (hb : Counted b) (hab : a ≤ b) :
    claimSum a (children.filter p) ≤ claimSum b (children.filter q) := by
  induction children generalizing a b with
  | nil => exact hab
  | cons c rest ih =>
    have hstep : a + childClaim c ≤ b + childClaim c := by
      rw [childClaim_eq]
      exact JsNumber.mono_of_fin (f := fun a => a + .fin (childUnits c : ℚ))
        (fun _ _ h => JsNumber.ofRat_mono (add_le_add_left h _)) rfl rfl hab
    cases hp : p c with
    | true =>
      rw [List.filter_cons_of_pos hp, List.filter_cons_of_pos (hpq c hp), claimSum_cons,
        claimSum_cons]
      exact ih (ha.add_claim c).2 (hb.add_claim c).2 hstep
    | false =>
      rw [List.filter_cons_of_neg (by rw [hp]; exact Bool.false_ne_true), List.filter_cons]
      split_ifs with hq
      · rw [claimSum_cons]
        exact ih ha (hb.add_claim c).2 (JsNumber.le_trans hab (hb.add_claim c).1)
      · exact ih ha hb hab

theorem sub_ne_nan {p : ℚ} (h : a ≠ .nan) : .fin p - a ≠ .nan := by
  cases a with
  | fin q => exact JsNumber.ofRat_ne_nan _
  | nan => exact absurd rfl h
  | posInf => exact (nofun : JsNumber.negInf ≠ .nan)
  | negInf => exact (nofun : JsNumber.posInf ≠ .nan)

/-- Taking more away leaves less. -/
theorem sub_anti {p : ℚ} {a b : JsNumber} (h : a ≤ b) : .fin p - b ≤ .fin p - a := by
  obtain ⟨ha, hb⟩ := JsNumber.ne_nan_of_le h
  cases a with
  | fin q =>
    cases b with
    | fin r => exact JsNumber.ofRat_mono (by linarith [JsNumber.fin_le_fin.mp h])
    | posInf => exact JsNumber.negInf_le (sub_ne_nan ha)
    | _ => cases h
  | negInf => exact JsNumber.le_posInf (sub_ne_nan hb)
  | posInf =>
    cases b with
    | posInf => rfl
    | _ => cases h
  | nan => cases h

/-! ### What is left -/

variable {S : ℕ}

theorem stock_bounds (hS : parent.stockUnits = .fin (S : ℚ))
    (hdouble : (JsNumber.fin (S : ℚ)).isDouble = true) (hpools : PoolsRead parent children)
    (now : JsNumber) :
    ∃ remaining unsold, remainingStock parent children now = .ok remaining ∧
      unsoldStock parent children = .ok unsold ∧
      0 ≤ remaining ∧ remaining ≤ unsold ∧ unsold ≤ .fin (S : ℚ) := by
  have hmatching := matchingChildren_eq_ok.mpr ⟨hpools, rfl⟩
  have hsum (predicate : EscrowState → Bool) : sumClaims parent children predicate =
      .ok (claimSum 0 ((children.filter (matchesListing parent)).filter predicate)) := by
    rw [sumClaims, hmatching]
    rfl
  have hcommitted := counted_zero.claimSum
    ((children.filter (matchesListing parent)).filter fun c => childCommitsStock c now)
  have hlocked := counted_zero.claimSum
    ((children.filter (matchesListing parent)).filter childIsLocked)
  have hmore : claimSum 0 ((children.filter (matchesListing parent)).filter childIsLocked) ≤
      claimSum 0 ((children.filter (matchesListing parent)).filter
        fun c => childCommitsStock c now) := by
    refine claimSum_mono (fun c hc => ?_) _ counted_zero counted_zero (by decide)
    rw [childCommitsStock, hc, Bool.true_or]
  have hzero : (0 : JsNumber) ≤ 0 := by decide
  have hzeroNan : (0 : JsNumber) ≠ .nan := JsNumber.ofInt_ne_nan 0
  refine ⟨_, _, by rw [remainingStock, hsum]; rfl, by rw [unsoldStock, hsum]; rfl, ?_, ?_, ?_⟩
  · rw [hS]
    exact JsNumber.le_max_left hzeroNan (sub_ne_nan hcommitted.ne_nan)
  · rw [hS]
    exact JsNumber.max_mono hzero (sub_anti hmore)
  · rw [hS]
    refine JsNumber.max_le ?_ ?_
    · rw [JsNumber.zero_eq_fin, JsNumber.fin_le_fin]
      exact Nat.cast_nonneg S
    · refine JsNumber.le_trans (sub_anti hlocked.nonneg) ?_
      rw [JsNumber.zero_eq_fin]
      exact JsNumber.ofRat_le_fin hdouble (by simp)

/-! ### The oversold children -/

/-- A list of oversold children keeps to a stock: the children that are not reported fit in it, and
each that is does not fit after the earlier ones. -/
def KeepsStock (S : ℕ) (order oversold : List EscrowState) : Prop :=
  ∃ marked : List (EscrowState × Bool), marked.map Prod.fst = order ∧
    (marked.filter Prod.snd).map Prod.fst = oversold ∧ total childUnits (kept marked) ≤ S ∧
    ∀ before c after, marked = before ++ (c, true) :: after →
      S < total childUnits (kept before) + childUnits c

/-- The rounded test of the pass, below `2^53`. -/
theorem stock_lt_iff {S d q : ℕ} (hS : S < JsNumber.maxExact) :
    JsNumber.fin (S : ℚ) < .fin (d : ℚ) + .fin (q : ℚ) ↔ S < d + q := by
  rcases Nat.lt_or_ge JsNumber.maxExact (d + q) with hlarge | hsmall
  · refine iff_of_true ?_ (hS.trans hlarge)
    refine JsNumber.lt_of_lt_of_le (JsNumber.fin_lt_fin.mpr (Nat.cast_lt.mpr hS)) ?_
    refine JsNumber.fin_le_ofRat (JsNumber.isDouble_natCast le_rfl) ?_
    rw [← Nat.cast_add]
    exact Nat.cast_le.mpr hlarge.le
  · have hsum := JsNumber.add_intCast (x := d) (y := q) (by omega)
    push_cast at hsum
    rw [hsum, JsNumber.fin_lt_fin, ← Nat.cast_add, Nat.cast_lt]

/-- Below `2^53` the pass is a first-fit pass. -/
theorem take_foldl (hS : S < JsNumber.maxExact) (order oversold : List EscrowState) {d : ℕ}
    (hd : d ≤ S) :
    order.foldl (Delivery.take (.fin (S : ℚ))) ⟨.fin (d : ℚ), oversold⟩ =
      ⟨.fin (filled S childUnits d order : ℚ), oversold ++ refused S childUnits d order⟩ := by
  induction order generalizing d oversold with
  | nil => rw [List.foldl_nil, filled_nil, refused_nil, List.append_nil]
  | cons c rest ih =>
    rw [List.foldl_cons, Delivery.take, childClaim_eq, filled_cons, refused_cons]
    dsimp only
    split_ifs with hover hfits hfits
    · rw [ih _ hd, List.append_assoc, List.singleton_append]
    · exact absurd ((stock_lt_iff hS).mp hover) hfits
    · exact absurd ((stock_lt_iff hS).mpr hfits) hover
    · have hsum := JsNumber.add_intCast (x := d) (y := childUnits c) (by omega)
      push_cast at hsum
      rw [hsum, ← Nat.cast_add, ih _ (Nat.le_of_not_lt hfits)]

theorem overcommitted_eq (hS : parent.stockUnits = .fin (S : ℚ))
    (hsafe : S < JsNumber.maxExact) (hmatching : matchingChildren parent children = .ok matching) :
    overcommittedChildren parent children
      = .ok (refused S childUnits 0 (lockedInOrder matching)) := by
  have hpass := take_foldl hsafe (lockedInOrder matching) [] (Nat.zero_le S)
  rw [Nat.cast_zero, ← JsNumber.zero_eq_fin] at hpass
  rw [overcommittedChildren, hmatching, ok_bind, hS, hpass]
  rfl

/-- What the three passes say of a listing agrees with its stock. -/
structure NeverOverDelivers (parent : EscrowState) (S : ℕ) (children : List EscrowState)
    (now : JsNumber) : Prop where
  passes : ∃ matching oversold, matchingChildren parent children = .ok matching ∧
    overcommittedChildren parent children = .ok oversold ∧
    KeepsStock S (lockedInOrder matching) oversold
  left : ∃ remaining unsold, remainingStock parent children now = .ok remaining ∧
    unsoldStock parent children = .ok unsold ∧
    0 ≤ remaining ∧ remaining ≤ unsold ∧ unsold ≤ .fin (S : ℚ)

/-- A listing that some child can match: its orders, its shares or the children of its plan. -/
def CanMatch (parent : EscrowState) : Prop :=
  (truthyKey parent.participants.seller).isSome = true ∨ parent.category = "chama" ∨
    parent.tranchePlan.isSome = true

theorem not_matchesListing (h : ¬ CanMatch parent) (child : EscrowState) :
    matchesListing parent child = false := by
  rw [CanMatch, not_or, not_or, Bool.not_eq_true, Option.isSome_eq_false_iff,
    Option.isNone_iff_eq_none] at h
  obtain ⟨hseller, hcategory, hplan⟩ := h
  rw [matchesListing]
  by_cases hnames : child.parent = some parent.id
  · have hjudged : judgedElsewhere parent child = false := by
      rw [judgedElsewhere, sellerSigned, hseller, decide_eq_false hcategory,
        Bool.eq_false_iff.mpr hplan]
      simp
    rw [decide_eq_true hnames, Bool.true_and, decide_eq_false_iff_not, toOption_eq_some,
      storefrontChildMismatches, hjudged, if_neg (by simp [hnames])]
    simp only [bind_eq_ok, pure_eq_ok, hseller]
    rintro ⟨text, -, text', -, hnone⟩
    rw [List.map_eq_nil_iff, List.filter_eq_nil_iff] at hnone
    exact hnone ("seller", true) (by simp) rfl
  · rw [decide_eq_false hnames, Bool.false_and]

theorem keepsStock_refused (S : ℕ) (order : List EscrowState) :
    KeepsStock S order (refused S childUnits 0 order) := by
  refine ⟨marks S childUnits 0 order, map_fst_marks 0 order, rfl, ?_, fun before c after h => ?_⟩
  · have hle := @filled_le _ _ childUnits _ (Nat.zero_le S) order
    rw [filled, Nat.zero_add] at hle
    exact hle
  · have hlt := lt_of_refused h
    rw [Nat.zero_add] at hlt
    exact hlt

def bulkChild (parent : EscrowState) (name units : ℕ) : EscrowState := { parent with
  id := toString name
  parent := some parent.id
  claimedQuantity := some (.fin (units : ℚ))
  chamaPolicy := some .shareV1
  trancheChild := some {
    parent := parent.id
    planId := ""
    planStartEventId := ""
    index := 0
    total := 1
    totalMsats := 0
    buyerPubkey := ""
    sellerPubkey := ""
    arbiterPubkey := ""
    termsDigest := ""
    coordinatorPubkey := ""
    bitcoinNetwork := .mainnet }
  initiator := ⟨(truthyKey parent.participants.seller).getD "", .seller⟩
  status := .locked }

theorem matchesListing_bulkChild (h : CanMatch parent) (name units : ℕ) :
    matchesListing parent (bulkChild parent name units) = true := by
  have hjudged : judgedElsewhere parent (bulkChild parent name units) = true := by
    rw [judgedElsewhere, Bool.or_eq_true, Bool.and_eq_true, Bool.and_eq_true, Bool.or_eq_true,
      decide_eq_true_eq]
    rcases h with hseller | hcategory | hplan
    · obtain ⟨seller, hseller⟩ := Option.isSome_iff_exists.mp hseller
      refine Or.inr ⟨rfl, Or.inr ?_⟩
      rw [sellerSigned, hseller, Option.any_some, decide_eq_true_eq]
      change toLowerCase ((truthyKey parent.participants.seller).getD "") = _
      rw [hseller, Option.getD_some]
    · exact Or.inl ⟨rfl, hcategory⟩
    · exact Or.inr ⟨rfl, Or.inl hplan⟩
  rw [matchesListing, Bool.and_eq_true, decide_eq_true_eq, decide_eq_true_eq, toOption_eq_some,
    storefrontChildMismatches, if_pos (Or.inr hjudged)]
  exact ⟨rfl, rfl⟩

theorem childUnits_bulkChild {name units : ℕ} (h : 0 < units) :
    childUnits (bulkChild parent name units) = units := by
  have hcheck : ((JsNumber.fin (units : ℚ)).isInteger && decide (0 < JsNumber.fin (units : ℚ)))
      = true := by
    rw [Bool.and_eq_true, decide_eq_true_eq, JsNumber.zero_eq_fin, JsNumber.fin_lt_fin]
    exact ⟨decide_eq_true (Rat.den_natCast units), Nat.cast_pos.mpr h⟩
  have hclaim : childClaim (bulkChild parent name units) = .fin (units : ℚ) := by
    rw [childClaim]
    change ((some (JsNumber.fin (units : ℚ))).filter _).getD 1 = _
    rw [Option.filter_some, if_pos hcheck, Option.getD_some]
  have heq := childClaim_eq (bulkChild parent name units)
  rw [hclaim, JsNumber.fin.injEq, Nat.cast_inj] at heq
  exact heq.symm

/-- Children that claim `2^53` units and then one at a time. -/
def bulkChildren (parent : EscrowState) (extra : ℕ) : List EscrowState :=
  bulkChild parent 0 JsNumber.maxExact ::
    (List.range extra).map fun name => bulkChild parent (name + 1) 1

/-- They are all made alike. -/
theorem exists_bulkChild {extra : ℕ} {c : EscrowState} (h : c ∈ bulkChildren parent extra) :
    ∃ name units, c = bulkChild parent name units := by
  rcases List.mem_cons.mp h with rfl | h
  · exact ⟨_, _, rfl⟩
  · obtain ⟨name, -, rfl⟩ := List.mem_map.mp h
    exact ⟨_, _, rfl⟩

theorem maxExact_add_one :
    JsNumber.fin (JsNumber.maxExact : ℚ) + .fin ((1 : ℕ) : ℚ) = .fin (JsNumber.maxExact : ℚ) := by
  decide +kernel

/-- From `2^53` on the pass loses the single units. -/
theorem foldl_bulkChildren (hS : JsNumber.maxExact ≤ S) (extra : ℕ) :
    (bulkChildren parent extra).foldl (Delivery.take (.fin (S : ℚ))) ⟨0, []⟩
      = ⟨.fin (JsNumber.maxExact : ℚ), []⟩ := by
  have hnot : ¬ JsNumber.fin (S : ℚ) < .fin (JsNumber.maxExact : ℚ) := by
    rw [JsNumber.fin_lt_fin, Nat.cast_lt]
    omega
  have hfirst : Delivery.take (.fin (S : ℚ)) ⟨0, []⟩ (bulkChild parent 0 JsNumber.maxExact)
      = ⟨.fin (JsNumber.maxExact : ℚ), []⟩ := by
    have hsum : (0 : JsNumber) + .fin (JsNumber.maxExact : ℚ) = .fin (JsNumber.maxExact : ℚ) := by
      rw [JsNumber.zero_eq_fin, JsNumber.fin_add_fin, zero_add]
      exact JsNumber.ofInt_natCast le_rfl
    rw [Delivery.take, childClaim_eq, childUnits_bulkChild (by decide)]
    dsimp only
    rw [hsum, if_neg hnot]
  have hstep (name : ℕ) : Delivery.take (.fin (S : ℚ)) ⟨.fin (JsNumber.maxExact : ℚ), []⟩
      (bulkChild parent name 1) = ⟨.fin (JsNumber.maxExact : ℚ), []⟩ := by
    rw [Delivery.take, childClaim_eq, childUnits_bulkChild Nat.one_pos]
    dsimp only
    rw [maxExact_add_one, if_neg hnot]
  rw [bulkChildren, List.foldl_cons, hfirst]
  induction List.range extra with
  | nil => rfl
  | cons name names ih => rw [List.map_cons, List.foldl_cons, hstep, ih]

/-- The passes agree with the stock on every list of children whose pools can be read exactly when
the stock is below `2^53`, or no child can match the listing. -/
theorem storefront_never_overdelivers {S : ℕ} (hS : parent.stockUnits = .fin (S : ℚ))
    (hdouble : (JsNumber.fin (S : ℚ)).isDouble = true) :
    (∀ children now, NeverOverDelivers parent S children now ↔ PoolsRead parent children) ↔
      S < JsNumber.maxExact ∨ ¬ CanMatch parent := by
  constructor
  · intro h
    by_contra hlarge
    push Not at hlarge
    obtain ⟨hlarge, hmatch⟩ := hlarge
    let extra := S - JsNumber.maxExact + 1
    have hall (c : EscrowState) (hc : c ∈ bulkChildren parent extra) :
        matchesListing parent c = true ∧ childIsLocked c = true := by
      obtain ⟨name, units, rfl⟩ := exists_bulkChild hc
      exact ⟨matchesListing_bulkChild hmatch name units, rfl⟩
    have hpools : PoolsRead parent (bulkChildren parent extra) := by
      intro c hc hnames hjudged
      have hmatches := (hall c hc).1
      rw [matchesListing, Bool.and_eq_true, decide_eq_true_eq, decide_eq_true_eq,
        toOption_eq_some] at hmatches
      exact (mismatches_ok_iff hnames).mp ⟨[], hmatches.2⟩ hjudged
    obtain ⟨matching, oversold, hmatching, hoversold, marked, horder, hnone, hle, -⟩ :=
      ((h (bulkChildren parent extra) 0).mpr hpools).passes
    obtain ⟨-, rfl⟩ := matchingChildren_eq_ok.mp hmatching
    rw [List.filter_eq_self.mpr fun c hc => (hall c hc).1] at hmatching horder
    have hsame : lockedInOrder (bulkChildren parent extra) = bulkChildren parent extra := by
      rw [lockedInOrder, List.filter_eq_self.mpr fun c hc => (hall c hc).2]
      refine List.Pairwise.insertionSort_eq (List.pairwise_of_forall_mem_list
        fun a ha b hb => ?_)
      have htime (c : EscrowState) (hc : c ∈ bulkChildren parent extra) :
          lockTime c = lockTime parent := by
        obtain ⟨name, units, rfl⟩ := exists_bulkChild hc
        rfl
      rw [lockedBefore, htime a ha, htime b hb, Bool.not_eq_true', decide_eq_false_iff_not]
      intro hlt
      exact JsNumber.not_lt_of_le (JsNumber.le_of_lt hlt) hlt
    rw [overcommittedChildren, hmatching, ok_bind, hsame, hS, foldl_bulkChildren hlarge,
      pure_eq_ok] at hoversold
    subst hoversold
    -- Nothing is reported, so all of it is delivered.
    rw [kept_eq_map hnone, horder, hsame, bulkChildren, total_cons,
      childUnits_bulkChild (by decide)] at hle
    have hrest : total childUnits ((List.range extra).map fun name => bulkChild parent (name + 1) 1)
        = extra := by
      have hone : (childUnits ∘ fun name => bulkChild parent (name + 1) 1) = fun _ => 1 :=
        funext fun name => childUnits_bulkChild Nat.one_pos
      rw [total, List.map_map, hone, List.map_const', List.sum_replicate, List.length_range]
      simp
    rw [hrest] at hle
    omega
  · intro h children now
    constructor
    · rintro ⟨⟨matching, _, hmatching, -, -⟩, -⟩
      exact (matchingChildren_eq_ok.mp hmatching).1
    · intro hpools
      have hmatching := matchingChildren_eq_ok.mpr ⟨hpools, rfl⟩
      refine ⟨?_, stock_bounds hS hdouble hpools now⟩
      rcases h with hsafe | hnone
      · exact ⟨_, _, hmatching, overcommitted_eq hS hsafe hmatching, keepsStock_refused S _⟩
      · have hempty : children.filter (matchesListing parent) = [] := by
          refine List.filter_eq_nil_iff.mpr fun c _ => ?_
          rw [not_matchesListing hnone c]
          exact Bool.false_ne_true
        rw [hempty] at hmatching
        refine ⟨_, [], hmatching, ?_, [], rfl, rfl, Nat.zero_le S, ?_⟩
        · rw [overcommittedChildren, hmatching]
          rfl
        · intro before c after hnil
          exact absurd hnil.symm (List.append_ne_nil_of_right_ne_nil _ (List.cons_ne_nil _ _))

/-! ### The order of the list -/

def oversoldIds (parent : EscrowState) (children : List EscrowState) : Option (Finset String) :=
  (overcommittedChildren parent children).toOption.map fun oversold =>
    (oversold.map fun c => c.id).toFinset

def OrderFree (parent : EscrowState) (children : List EscrowState) : Prop :=
  ∀ children', children'.Perm children →
    oversoldIds parent children' = oversoldIds parent children

def lockedAtTime (child : EscrowState) : ℚ :=
  match lockTime child with
  | .fin q => q
  | _ => 0

/-- The locked children of a listing that have one lock time, and would each fit in what the earlier
ones leave of the stock, fit in it together. -/
def LockTiesFit (parent : EscrowState) (S : ℕ) (children : List EscrowState) : Prop :=
  ∀ matching, matchingChildren parent children = .ok matching →
    TiesFit lockedAtTime S childUnits 0 (lockedInOrder matching)

def NoLockTies (parent : EscrowState) (children : List EscrowState) : Prop :=
  ∀ matching, matchingChildren parent children = .ok matching →
    ∀ a ∈ matching, ∀ b ∈ matching, childIsLocked a = true → childIsLocked b = true →
      lockedAtTime a = lockedAtTime b → a = b

theorem lockedBefore_iff {a b : EscrowState} (ha : (lockTime a).isFinite = true)
    (hb : (lockTime b).isFinite = true) :
    lockedBefore a b = true ↔ lockedAtTime a ≤ lockedAtTime b := by
  have htime {c : EscrowState} (hc : (lockTime c).isFinite = true) :
      lockTime c = .fin (lockedAtTime c) := by
    rw [lockedAtTime]
    cases h : lockTime c with
    | fin q => rfl
    | _ => rw [h] at hc; cases hc
  rw [lockedBefore, htime ha, htime hb, Bool.not_eq_true', decide_eq_false_iff_not,
    JsNumber.fin_lt_fin, not_lt]

theorem lockedInOrder_eq (hfinite : ∀ c ∈ matching, (lockTime c).isFinite = true) :
    lockedInOrder matching = (matching.filter childIsLocked).insertionSort
      fun a b => lockedAtTime a ≤ lockedAtTime b := by
  have hmap := List.map_insertionSort (fun a b => lockedBefore a b = true)
    (fun a b => lockedAtTime a ≤ lockedAtTime b) id (matching.filter childIsLocked)
    fun a ha b hb => lockedBefore_iff (hfinite a (List.mem_of_mem_filter ha))
      (hfinite b (List.mem_of_mem_filter hb))
  rw [List.map_id, List.map_id] at hmap
  exact hmap

theorem lockedInOrder_sorted (hfinite : ∀ c ∈ matching, (lockTime c).isFinite = true) :
    (lockedInOrder matching).Pairwise fun a b => lockedAtTime a ≤ lockedAtTime b := by
  rw [lockedInOrder_eq hfinite]
  have : Std.Total fun a b => lockedAtTime a ≤ lockedAtTime b :=
    ⟨fun a b => le_total (lockedAtTime a) (lockedAtTime b)⟩
  have : IsTrans EscrowState fun a b => lockedAtTime a ≤ lockedAtTime b :=
    ⟨fun _ _ _ => le_trans⟩
  exact List.pairwise_insertionSort _ _

theorem lockedInOrder_perm (matching : List EscrowState) :
    (lockedInOrder matching).Perm (matching.filter childIsLocked) :=
  List.perm_insertionSort _ _

theorem PoolsRead.perm {children' : List EscrowState} (hperm : children'.Perm children) :
    PoolsRead parent children' ↔ PoolsRead parent children :=
  forall_congr' fun _ => imp_congr_left hperm.mem_iff

theorem orderFree_of_not_poolsRead (h : ¬ PoolsRead parent children) :
    OrderFree parent children := by
  have hthrows {children' : List EscrowState} (h : ¬ PoolsRead parent children') :
      oversoldIds parent children' = none := by
    rw [oversoldIds, Option.map_eq_none_iff]
    cases hover : overcommittedChildren parent children' with
    | error problem => rfl
    | ok oversold =>
      obtain ⟨matching, hmatching, -⟩ := bind_eq_ok.mp hover
      exact absurd (matchingChildren_eq_ok.mp hmatching).1 h
  intro children' hperm
  rw [hthrows h, hthrows (mt (PoolsRead.perm hperm).mp h)]

theorem exists_children_of_order {order : List EscrowState}
    (hfinite : ∀ c ∈ children, (lockTime c).isFinite = true)
    (hperm : order.Perm (lockedInOrder (children.filter (matchesListing parent))))
    (hsorted : order.Pairwise fun a b => lockedAtTime a ≤ lockedAtTime b) :
    ∃ children' : List EscrowState, children'.Perm children ∧
      lockedInOrder (children'.filter (matchesListing parent)) = order := by
  let ordered (c : EscrowState) : Bool := childIsLocked c && matchesListing parent c
  have horder : order.Perm (children.filter ordered) := by
    rw [← List.filter_filter]
    exact hperm.trans (lockedInOrder_perm _)
  have hordered (c : EscrowState) (hc : c ∈ order) : ordered c = true :=
    (List.mem_filter.mp (horder.mem_iff.mp hc)).2
  refine ⟨order ++ children.filter fun c => !ordered c,
    (horder.append_right _).trans (List.filter_append_perm ordered children), ?_⟩
  have hlocked : ((order ++ children.filter fun c => !ordered c).filter
      (matchesListing parent)).filter childIsLocked = order := by
    have hothers : (children.filter fun c => !ordered c).filter ordered = [] := by
      rw [List.filter_filter]
      exact List.filter_eq_nil_iff.mpr fun c _ => by simp
    rw [List.filter_filter, List.filter_append]
    change order.filter ordered ++ (children.filter fun c => !ordered c).filter ordered = order
    rw [List.filter_eq_self.mpr hordered, hothers, List.append_nil]
  rw [lockedInOrder_eq fun c hc => ?_, hlocked]
  · exact hsorted.insertionSort_eq
  · rcases List.mem_append.mp (List.mem_of_mem_filter hc) with hc | hc
    · exact hfinite c (List.mem_of_mem_filter (horder.mem_iff.mp hc))
    · exact hfinite c (List.mem_of_mem_filter hc)

/-- Without ties among the lock times the order of the list does not matter.  Below `2^53` units it
does not if and only if the children of each lock time that would each fit, fit together. -/
theorem overcommitted_order_free {S : ℕ} (hS : parent.stockUnits = .fin (S : ℚ))
    (hfinite : ∀ c ∈ children, (lockTime c).isFinite = true)
    (hids : (children.map fun c => c.id).Nodup) :
    (NoLockTies parent children → OrderFree parent children) ∧
      (S < JsNumber.maxExact → (OrderFree parent children ↔ LockTiesFit parent S children)) := by
  by_cases hpools : PoolsRead parent children
  swap
  · have hfree := orderFree_of_not_poolsRead hpools
    refine ⟨fun _ => hfree, fun _ => iff_of_true hfree fun matching hmatching => ?_⟩
    exact absurd (matchingChildren_eq_ok.mp hmatching).1 hpools
  have hmatching := matchingChildren_eq_ok.mpr ⟨hpools, rfl⟩
  have hfinite' : ∀ c ∈ children.filter (matchesListing parent), (lockTime c).isFinite = true :=
    fun c hc => hfinite c (List.mem_of_mem_filter hc)
  have hsorted := lockedInOrder_sorted hfinite'
  -- What another order of the children changes.
  have hother {children' : List EscrowState} (hperm : children'.Perm children) :
      matchingChildren parent children' = .ok (children'.filter (matchesListing parent)) ∧
        (lockedInOrder (children'.filter (matchesListing parent))).Perm
          (lockedInOrder (children.filter (matchesListing parent))) ∧
        (lockedInOrder (children'.filter (matchesListing parent))).Pairwise
          fun a b => lockedAtTime a ≤ lockedAtTime b := by
    refine ⟨matchingChildren_eq_ok.mpr ⟨(PoolsRead.perm hperm).mpr hpools, rfl⟩, ?_,
      lockedInOrder_sorted fun c hc => hfinite c (hperm.subset (List.mem_of_mem_filter hc))⟩
    exact (lockedInOrder_perm _).trans
      (((hperm.filter _).filter _).trans (lockedInOrder_perm _).symm)
  constructor
  · intro hties children' hperm
    obtain ⟨hmatching', hperm', hsorted'⟩ := hother hperm
    have hsame := hperm'.eq_of_pairwise (fun a b ha hb hab hba => by
      have hmem {c : EscrowState} (hc : c ∈ lockedInOrder
          (children.filter (matchesListing parent))) :=
        List.mem_filter.mp ((lockedInOrder_perm _).mem_iff.mp hc)
      exact hties _ hmatching a (hmem (hperm'.mem_iff.mp ha)).1 b (hmem hb).1
        (hmem (hperm'.mem_iff.mp ha)).2 (hmem hb).2 (le_antisymm hab hba)) hsorted' hsorted
    rw [oversoldIds, oversoldIds, overcommittedChildren, overcommittedChildren, hmatching,
      hmatching', ok_bind, ok_bind, hsame]
  · intro hsafe
    have hover := overcommitted_eq hS hsafe hmatching
    constructor
    · intro hfree matching hmatched
      obtain rfl := Except.ok.inj (hmatching.symm.trans hmatched)
      by_contra hties
      have hnodup : (lockedInOrder (children.filter (matchesListing parent))).Nodup :=
        (lockedInOrder_perm _).nodup_iff.mpr
          (((List.Nodup.of_map _ hids).filter _).filter _)
      obtain ⟨order, hperm, horder, a, ha, hnot⟩ :=
        exists_order (Nat.zero_le S) hnodup hsorted hties
      obtain ⟨children', hperm', rfl⟩ := exists_children_of_order hfinite hperm horder
      have hover' := overcommitted_eq hS hsafe (hother hperm').1
      have hsame := hfree children' hperm'
      rw [oversoldIds, oversoldIds, hover, hover', Except.toOption, Except.toOption,
        Option.map_some, Option.map_some, Option.some.injEq] at hsame
      have hmem : a.id ∈ ((refused S childUnits 0 (lockedInOrder
          (children'.filter (matchesListing parent)))).map fun c => c.id).toFinset := by
        rw [hsame]
        exact List.mem_toFinset.mpr (List.mem_map_of_mem ha)
      obtain ⟨b, hb, hid⟩ := List.mem_map.mp (List.mem_toFinset.mp hmem)
      have hchild {c : EscrowState} (hc : c ∈ lockedInOrder
          (children.filter (matchesListing parent))) : c ∈ children :=
        List.mem_of_mem_filter (List.mem_of_mem_filter ((lockedInOrder_perm _).mem_iff.mp hc))
      have heq := List.inj_on_of_nodup_map hids
        (hchild (hperm.mem_iff.mp (refused_subset _ _ hb))) (hchild (refused_subset _ _ ha)) hid
      exact hnot (heq ▸ hb)
    · intro hties children' hperm
      obtain ⟨hmatching', hperm', hsorted'⟩ := hother hperm
      have hsame := refused_perm (Nat.zero_le S) hsorted hsorted' hperm'.symm
        (hties _ hmatching)
      rw [oversoldIds, oversoldIds, hover, overcommitted_eq hS hsafe hmatching']
      exact congrArg some (List.toFinset_eq_of_perm _ _ (hsame.map _).symm)

/-! ### A sample shop -/

def shopCreate (stock price : JsNumber) : ParsedEscrowEvent := { sampleCreate with
  payload := .create {
    description := "beans"
    amountMsats := price
    category := "marketplace"
    mintUrl := "https://mint"
    platformFeeBps := 0
    platformFeePubkey := hexKey 'd'
    expirySeconds := 3600
    stock := some stock
    communityArbiters := .arr [.str (hexKey 'c')]
    createdAt := 1800000000 } }

def sampleShop (stock price : JsNumber) : Option EscrowState :=
  liveTrade silentHost (shopCreate stock price) []

/-- The buyer `b`'s order of some units. -/
def orderCreate (escrowId : String) (units amount : JsNumber) : ParsedEscrowEvent :=
  { sampleEvent '7' 'b' 1800000040 (.create {
      description := "beans"
      amountMsats := amount
      category := "marketplace"
      mintUrl := "https://mint"
      platformFeeBps := 0
      platformFeePubkey := hexKey 'd'
      expirySeconds := 3600
      parent := some "sm_sample"
      sellerPubkey := some (hexKey 'a')
      claimedQuantity := some units
      communityArbiters := .arr [.str (hexKey 'c')]
      createdAt := 1800000040 }) with escrowId }

def orderLock (escrowId : String) (amount : JsNumber) (lockedAt : ℕ) : ParsedEscrowEvent :=
  { sampleEvent '2' 'b' lockedAt (.lock {
      notesHash := .str "notes"
      shares := .arr ([0, 1, 2].map fun i : ℕ => .obj [("shareIndex", .num (.ofInt i))])
      sellerReceivesMsats := amount
      arbiterFeeMsats := 0
      buyerPubkey := hexKey 'b'
      arbiterPubkey := hexKey 'c'
      lockedAt := .ofInt lockedAt }) with escrowId }

def sampleOrder (escrowId : String) (units amount : JsNumber) (lockedAt : ℕ) :
    Option EscrowState :=
  liveTrade silentHost (orderCreate escrowId units amount) [orderLock escrowId amount lockedAt]

theorem exists_of_orders {shop first second : Option EscrowState}
    {check : EscrowState → EscrowState → EscrowState → Bool}
    (hshop : ∀ s, shop = some s → Reached silentHost s)
    (hfirst : ∀ s, first = some s → Reached silentHost s)
    (hsecond : ∀ s, second = some s → Reached silentHost s)
    (h : (shop.any fun parent => first.any fun a => second.any fun b => check parent a b) = true) :
    ∃ parent a b, Reached silentHost parent ∧ Reached silentHost a ∧ Reached silentHost b ∧
      check parent a b = true := by
  obtain ⟨parent, hparent, h⟩ := (Option.any_eq_true _ _).mp h
  obtain ⟨a, ha, h⟩ := (Option.any_eq_true _ _).mp h
  obtain ⟨b, hb, h⟩ := (Option.any_eq_true _ _).mp h
  exact ⟨parent, a, b, hshop parent hparent, hfirst a ha, hsecond b hb, h⟩

theorem sampleShop_reached {stock price : JsNumber} {s : EscrowState}
    (h : sampleShop stock price = some s) : Reached silentHost s :=
  liveTrade_reached silentHost h

theorem sampleOrder_reached {escrowId : String} {units amount : JsNumber} {lockedAt : ℕ}
    {s : EscrowState} (h : sampleOrder escrowId units amount lockedAt = some s) :
    Reached silentHost s :=
  liveTrade_reached silentHost h

/-- A shop with three units in stock. -/
theorem three_units_in_stock : ∃ parent, Reached silentHost parent ∧ CanMatch parent ∧
    ∀ children now, NeverOverDelivers parent 3 children now ↔ PoolsRead parent children := by
  have hrun : ((sampleShop 3 1000).any fun parent =>
      parent.stockUnits = 3 && (truthyKey parent.participants.seller).isSome) = true := by
    decide +kernel
  obtain ⟨parent, hparent, h⟩ := (Option.any_eq_true _ _).mp hrun
  rw [Bool.and_eq_true, decide_eq_true_eq] at h
  have hstock : parent.stockUnits = .fin ((3 : ℕ) : ℚ) :=
    h.1.trans (JsNumber.ofInt_natCast (by decide))
  exact ⟨parent, sampleShop_reached hparent, Or.inl h.2,
    (storefront_never_overdelivers hstock (JsNumber.isDouble_natCast (by decide))).mpr
      (Or.inl (by decide))⟩

/-- A shop with `2^53` units in stock delivers one unit more. -/
theorem one_unit_too_many : ∃ parent first second, Reached silentHost parent ∧
    Reached silentHost first ∧ Reached silentHost second ∧
    parent.stockUnits = .fin (JsNumber.maxExact : ℚ) ∧ PoolsRead parent [first, second] ∧
    overcommittedChildren parent [first, second] = .ok [] ∧
    ∀ now, ¬ NeverOverDelivers parent JsNumber.maxExact [first, second] now := by
  have hrun : ((sampleShop 9007199254740992 1).any fun parent =>
      (sampleOrder "sm_bulk" 9007199254740992 9007199254740992 1800000050).any fun first =>
        (sampleOrder "sm_unit" 1 1 1800000060).any fun second =>
          parent.stockUnits = .fin (JsNumber.maxExact : ℚ)
            && matchesListing parent first && matchesListing parent second
            && childIsLocked first && childIsLocked second
            && childUnits first = JsNumber.maxExact && childUnits second = 1
            && (overcommittedChildren parent [first, second]).toOption.any List.isEmpty)
        = true := by
    decide +kernel
  obtain ⟨parent, first, second, hparent, hfirst, hsecond, h⟩ := exists_of_orders
    (fun _ => sampleShop_reached) (fun _ => sampleOrder_reached) (fun _ => sampleOrder_reached) hrun
  simp only [Bool.and_eq_true, decide_eq_true_eq] at h
  obtain ⟨⟨⟨⟨⟨⟨⟨hstock, hmatchFirst⟩, hmatchSecond⟩, hlockFirst⟩, hlockSecond⟩, hbulk⟩, hunit⟩,
    hnone⟩ := h
  obtain ⟨_, hover, hempty⟩ := exists_ok_of_any hnone
  obtain rfl := List.isEmpty_iff.mp hempty
  obtain ⟨matching, hmatching, -⟩ := bind_eq_ok.mp hover
  obtain ⟨hpools, rfl⟩ := matchingChildren_eq_ok.mp hmatching
  refine ⟨parent, first, second, hparent, hfirst, hsecond, hstock, hpools, hover, fun now h => ?_⟩
  obtain ⟨⟨_, _, hmatching', hover', marked, horder, hreported, hle, -⟩, -⟩ := h
  obtain rfl := Except.ok.inj (hmatching.symm.trans hmatching')
  obtain rfl := Except.ok.inj (hover.symm.trans hover')
  have hall : [first, second].filter (matchesListing parent) = [first, second] :=
    List.filter_eq_self.mpr fun c hc => by
      rcases List.mem_pair.mp hc with rfl | rfl <;> assumption
  have hlocked : [first, second].filter childIsLocked = [first, second] :=
    List.filter_eq_self.mpr fun c hc => by
      rcases List.mem_pair.mp hc with rfl | rfl <;> assumption
  rw [kept_eq_map hreported, horder, total_perm (lockedInOrder_perm _), hall, hlocked, total_cons,
    total_cons, total_nil, hbulk, hunit] at hle
  omega

example : (sampleShop 3 1000).isSome = true := by decide +kernel

/-- Two orders of the last unit, one locked after the other: every client reports the later one. -/
theorem last_unit_in_turn : ∃ parent first second, Reached silentHost parent ∧
    Reached silentHost first ∧ Reached silentHost second ∧ parent.stockUnits = 1 ∧
    matchingChildren parent [first, second] = .ok [first, second] ∧
    OrderFree parent [first, second] := by
  have hrun : ((sampleShop 1 1000).any fun parent =>
      (sampleOrder "sm_early" 1 1000 1800000050).any fun first =>
        (sampleOrder "sm_late" 1 1000 1800000060).any fun second =>
          parent.stockUnits = 1 && matchesListing parent first && matchesListing parent second
            && (matchingChildren parent [first, second]).toOption.isSome
            && (lockTime first).isFinite && (lockTime second).isFinite
            && lockedAtTime first ≠ lockedAtTime second && first.id ≠ second.id) = true := by
    decide +kernel
  obtain ⟨parent, first, second, hparent, hfirst, hsecond, h⟩ := exists_of_orders
    (fun _ => sampleShop_reached) (fun _ => sampleOrder_reached) (fun _ => sampleOrder_reached) hrun
  simp only [Bool.and_eq_true, decide_eq_true_eq] at h
  obtain ⟨⟨⟨⟨⟨⟨⟨hstock, hmatchFirst⟩, hmatchSecond⟩, hread⟩, hfiniteFirst⟩, hfiniteSecond⟩,
    htimes⟩, hids⟩ := h
  have hone : parent.stockUnits = .fin ((1 : ℕ) : ℚ) :=
    hstock.trans (JsNumber.ofInt_natCast (by decide))
  obtain ⟨matching, hmatching⟩ := Option.isSome_iff_exists.mp hread
  obtain ⟨-, hall⟩ := matchingChildren_eq_ok.mp (toOption_eq_some.mp hmatching)
  have hself : [first, second].filter (matchesListing parent) = [first, second] :=
    List.filter_eq_self.mpr fun c hc => by
      rcases List.mem_pair.mp hc with rfl | rfl <;> assumption
  rw [hself] at hall
  subst hall
  refine ⟨parent, first, second, hparent, hfirst, hsecond, hstock, toOption_eq_some.mp hmatching,
    (overcommitted_order_free hone (fun c hc => ?_) ?_).1
      fun matching hmatched a ha b hb _ _ heq => ?_⟩
  · rcases List.mem_pair.mp hc with rfl | rfl <;> assumption
  · simpa using hids
  · obtain rfl := Except.ok.inj ((toOption_eq_some.mp hmatching).symm.trans hmatched)
    rcases List.mem_pair.mp ha with rfl | rfl <;> rcases List.mem_pair.mp hb with rfl | rfl
    · rfl
    · exact absurd heq htimes
    · exact absurd heq.symm htimes
    · rfl

/-- Two orders of the last unit, locked in one second: each client reports the one it lists last. -/
theorem last_unit_at_once : ∃ parent first second, Reached silentHost parent ∧
    Reached silentHost first ∧ Reached silentHost second ∧
    oversoldIds parent [first, second] = some {second.id} ∧
    oversoldIds parent [second, first] = some {first.id} ∧ first.id ≠ second.id := by
  have hrun : ((sampleShop 1 1000).any fun parent =>
      (sampleOrder "sm_one" 1 1000 1800000050).any fun first =>
        (sampleOrder "sm_other" 1 1000 1800000050).any fun second =>
          oversoldIds parent [first, second] = some {second.id}
            && oversoldIds parent [second, first] = some {first.id}
            && first.id ≠ second.id) = true := by
    decide +kernel
  obtain ⟨parent, first, second, hparent, hfirst, hsecond, h⟩ := exists_of_orders
    (fun _ => sampleShop_reached) (fun _ => sampleOrder_reached) (fun _ => sampleOrder_reached) hrun
  simp only [Bool.and_eq_true, decide_eq_true_eq] at h
  exact ⟨parent, first, second, hparent, hfirst, hsecond, h.1.1, h.1.2, h.2⟩

end ChamaEscrow
