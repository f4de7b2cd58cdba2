import ChamaEscrow.Engine.TranchePlans
import ChamaEscrow.Trade.SliceCap
import ChamaEscrow.Trade.Votes
import Mathlib.Data.List.Induction

/-!
# The children of a plan

`derivePlanState` (`tranche-plan.ts`) puts the children that a public query has found in a map by
index, the last one listed under each, and verifies only what is left in the map.

* `scanTranches_spec`: what the loop over the tranches has gathered when it ends.
* `derivePlanState_ok`: over children that a client has replayed it does not throw.
* `derivePlanState_ignores`: unverifiable children and the order of the list leave the tranches with
  a verified child as they are if and only if the child listed last under each looks the same.
* `canFundTranche_sequential`: at most one child can be funded, the one after those that are
  verified and completed; a later child that is completed before its turn is not counted.
-/

namespace ChamaEscrow

open Js Library

variable {host : Host} {s s' parent : EscrowState} {e : ParsedEscrowEvent}

/-! ### Reachable plans and children -/

variable {frozen : TranchePlan}

theorem Reached.validPlan (h : Reached host s)
    (hplan : s.tranchePlan = some frozen) : validatePlanStart frozen.toPlanStartPayload = none := by
  have hall : ∀ frozen, s.tranchePlan = some frozen →
      validatePlanStart frozen.toPlanStartPayload = none := by
    refine Reachable.invariant (I := fun s : EscrowState => ∀ frozen, s.tranchePlan = some frozen →
      validatePlanStart frozen.toPlanStartPayload = none) (fun s hs frozen hplan => ?_)
      (fun s e s' ih he frozen hplan => ?_) h
    · obtain ⟨e, p, hborn⟩ := hs.newborn
      rw [hborn.tranchePlan] at hplan
      cases hplan
    · rcases (applyToState_stepped he).freezesPlan with hsame | ⟨p, hfreezes⟩
      · exact ih frozen (hsame ▸ hplan)
      · rw [hfreezes.frozen, Option.some.injEq] at hplan
        subst hplan
        exact hfreezes.valid
  exact hall frozen hplan

theorem Newborn.childCreate {p : CreatePayload} (h : Newborn e p s) : childCreate s = some p := by
  have hkind : e.kind = .create := by rw [ParsedEscrowEvent.kind, h.payload]; rfl
  have hfind : [e].find? (fun event => event.kind = .create) = some e := by simp [hkind]
  rw [ChamaEscrow.childCreate, h.eventChain, hfind, Option.bind_some, h.payload]

/-- It stays the one that is found. -/
theorem Stepped.childCreate (h : Stepped host s e s') {p : CreatePayload}
    (hcreate : childCreate s = some p) : ChamaEscrow.childCreate s' = some p := by
  rcases h.eventChain with hchain | hchain
  · rw [ChamaEscrow.childCreate, hchain]
    exact hcreate
  · obtain ⟨event, hfind, hpayload⟩ := Option.bind_eq_some_iff.mp hcreate
    rw [ChamaEscrow.childCreate, hchain, List.find?_append, hfind, Option.some_or,
      Option.bind_some]
    exact hpayload

theorem Reached.childCreate (h : Reached host s) :
    ∃ p, childCreate s = some p ∧ p.trancheChild = s.trancheChild := by
  refine Reachable.invariant (I := fun s : EscrowState => ∃ p, ChamaEscrow.childCreate s = some p ∧
    p.trancheChild = s.trancheChild) (fun s hs => ?_) (fun s e s' ih he => ?_) h
  · obtain ⟨e, p, hborn⟩ := hs.newborn
    exact ⟨p, hborn.childCreate, hborn.trancheChild.symm⟩
  · obtain ⟨p, hcreate, hchild⟩ := ih
    have hstepped := applyToState_stepped he
    have hsame : s'.trancheChild = s.trancheChild :=
      congrArg TradeTerms.trancheChild hstepped.terms
    exact ⟨p, hstepped.childCreate hcreate, hchild.trans hsame.symm⟩

/-! ### Valid plans -/

variable {t : TrancheDescriptor} {ts : List TrancheDescriptor}

theorem trancheSum_index {cap : Option JsNumber} {index : ℕ}
    {sum total : JsNumber} (h : trancheSum cap ts index sum = .ok total) {i : ℕ}
    (ht : ts[i]? = some t) : t.index = .ofInt (index + i : ℕ) := by
  induction ts generalizing index sum i with
  | nil => cases ht
  | cons u ts ih =>
    rw [trancheSum] at h
    split_ifs at h with hbad
    cases i with
    | zero =>
      obtain rfl := Option.some.inj ht
      have hindex := (not_or.mp hbad).1
      simp only [JsNumber.strictEq, Bool.not_eq_true', Bool.and_eq_false_iff, not_or,
        Bool.not_eq_false, decide_eq_true_eq] at hindex
      exact hindex.2
    | succ i =>
      rw [ih h ht, Nat.add_right_comm, Nat.add_assoc]

theorem index_of_valid {p : PlanStartPayload} (h : validatePlanStart p = none) {i : ℕ}
    (ht : p.tranches[i]? = some t) : t.index = .fin (i : ℚ) := by
  have hsmall := (planSums_of_valid h).small
  obtain ⟨hlt, -⟩ := List.getElem?_eq_some_iff.mp ht
  unfold validatePlanStart at h
  split_ifs at h
  split at h
  · cases h
  rename_i sum hsum
  rw [trancheSum_index hsum ht, Nat.zero_add]
  exact JsNumber.ofInt_natCast (by rw [JsNumber.maxExact]; omega)

theorem trancheAt_natCast {p : PlanStartPayload} (i : ℕ) :
    p.trancheAt (.fin (i : ℚ)) = p.tranches[i]? := by
  simp [PlanStartPayload.trancheAt, JsNumber.toNat?]

theorem trancheChildId_natCast (parentId planId : String) (i : ℕ) :
    ∃ id, trancheChildId host parentId planId (.fin (i : ℚ)) = .ok id := by
  rw [trancheChildId, if_neg]
  · exact ⟨_, rfl⟩
  · have hint : (JsNumber.fin (i : ℚ)).isInteger = true := by simp [JsNumber.isInteger]
    rw [hint, JsNumber.zero_eq_fin, JsNumber.fin_lt_fin]
    simp

/-! ### The verification of a child -/

structure VerifiedCreate (host : Host) (parentId planStartEventId : String)
    (plan : PlanStartPayload) (childId : String) (child : TrancheChildDescriptor) : Prop where
  parent : child.parent = parentId
  planId : child.planId = plan.planId
  id : trancheChildId host parentId plan.planId child.index = .ok childId

theorem verifyTrancheChild_verified {parentId planStartEventId childId : String}
    {plan : PlanStartPayload} {payload : CreatePayload} {child : TrancheChildDescriptor}
    (hchild : payload.trancheChild = some child)
    (h : verifyTrancheChild host parentId planStartEventId plan childId payload = .ok none) :
    VerifiedCreate host parentId planStartEventId plan childId child := by
  rw [verifyTrancheChild, hchild] at h
  dsimp only at h
  split at h
  · cases h
  rename_i hparent
  rw [bind_eq_ok] at h
  obtain ⟨expectedId, hid, h⟩ := h
  split at h
  · cases h
  rename_i hwrong
  push Not at hparent hwrong
  exact ⟨hparent.1, hparent.2.2, hwrong ▸ hid⟩

theorem verifyTrancheChild_ok {parentId planStartEventId childId : String}
    {plan : PlanStartPayload} {payload : CreatePayload} {child : TrancheChildDescriptor} {i : ℕ}
    (hchild : payload.trancheChild = some child) (hindex : child.index = .fin (i : ℚ))
    (hlt : i < plan.tranches.length) :
    ∃ error, verifyTrancheChild host parentId planStartEventId plan childId payload = .ok error := by
  obtain ⟨id, hid⟩ := @trancheChildId_natCast host parentId plan.planId i
  have hbuild : ∃ expected, buildChildDescriptor parentId planStartEventId plan child.index
      = .ok expected := by
    rw [buildChildDescriptor, hindex, trancheAt_natCast, List.getElem?_eq_getElem hlt]
    exact ⟨_, rfl⟩
  obtain ⟨expected, hexpected⟩ := hbuild
  rw [verifyTrancheChild, hchild]
  dsimp only
  split
  · exact ⟨_, rfl⟩
  rw [hindex, hid, ok_bind, ← hindex, hexpected]
  split
  · exact ⟨_, rfl⟩
  rw [ok_bind]
  split
  · exact ⟨_, rfl⟩
  split_ifs <;> exact ⟨_, rfl⟩

def Verified (host : Host) (parentId : String) (frozen : TranchePlan) (child : EscrowState) : Prop :=
  childError host parentId frozen child = .ok none

variable {parentId : String}

theorem verified_iff :
    Verified host parentId frozen s ↔
      (childError host parentId frozen s).toOption = some none :=
  toOption_eq_some.symm

theorem Verified.spec (hs : Reached host s)
    (h : Verified host parentId frozen s) : ∃ d, s.trancheChild = some d ∧
      VerifiedCreate host parentId frozen.eventId frozen.toPlanStartPayload s.id d := by
  obtain ⟨p, hcreate, hchild⟩ := hs.childCreate
  rw [Verified, childError, hcreate] at h
  dsimp only at h
  obtain ⟨error, herror, h⟩ := bind_eq_ok.mp h
  have hnone : error = none := by
    cases error with
    | none => rfl
    | some error => cases h
  rw [hnone] at herror
  cases hd : s.trancheChild with
  | none =>
    rw [verifyTrancheChild, hchild, hd] at herror
    cases herror
  | some d => exact ⟨d, rfl, verifyTrancheChild_verified (hchild.trans hd) herror⟩

/-! ### The map of the children -/

theorem get_setAll_eq_getLast? {κ α : Type} [DecidableEq κ] (l : List (κ × α)) (k : κ) :
    ((OrderedMap.empty : OrderedMap κ α).setAll l).get k
      = (l.filter fun entry => entry.1 = k).getLast?.map Prod.snd := by
  induction l using List.reverseRecOn with
  | nil => rfl
  | append_singleton l entry ih =>
    have hset : (OrderedMap.empty : OrderedMap κ α).setAll (l ++ [entry])
        = ((OrderedMap.empty : OrderedMap κ α).setAll l).set entry.1 entry.2 := by
      rw [OrderedMap.setAll, OrderedMap.setAll, List.foldl_append, List.foldl_cons, List.foldl_nil]
    rw [hset, OrderedMap.get_set, ih, List.filter_append, List.filter_singleton]
    by_cases hk : k = entry.1
    · rw [if_pos hk, decide_eq_true hk.symm, cond_true, List.getLast?_concat, Option.map_some]
    · rw [if_neg hk, decide_eq_false (Ne.symm hk), cond_false, List.append_nil]

def isListed (frozen : TranchePlan) (index : JsNumber) (child : EscrowState) : Bool :=
  child.trancheChild.any fun d => d.planId = frozen.planId && d.index = index

def lastListed (frozen : TranchePlan) (children : List EscrowState) (index : JsNumber) :
    Option EscrowState := (children.filter (isListed frozen index)).getLast?

theorem childrenByIndex_get (frozen : TranchePlan) (children : List EscrowState)
    (index : JsNumber) :
    (childrenByIndex frozen children).get index = lastListed frozen children index := by
  rw [childrenByIndex, get_setAll_eq_getLast?, lastListed, ← List.getLast?_map]
  congr 1
  induction children with
  | nil => rfl
  | cons child children ih =>
    rw [List.filterMap_cons, List.filter_cons, isListed]
    cases hd : child.trancheChild with
    | none => exact ih
    | some d =>
      rw [Option.any_some]
      by_cases hplan : d.planId = frozen.planId
      · by_cases hindex : d.index = index
        · simp only [hplan, hindex, Option.filter_some, decide_true, Option.map_some, if_true,
            List.filter_cons_of_pos, List.map_cons, ih, Bool.and_self]
        · simp only [hplan, hindex, Option.filter_some, decide_true, Option.map_some, if_true,
            decide_false, Bool.and_false, Bool.false_eq_true, if_false, not_false_eq_true,
            List.filter_cons_of_neg, ih]
      · simp only [hplan, Option.filter_some, decide_false, Bool.false_eq_true, if_false,
          Option.map_none, Bool.false_and, ih]

variable {children : List EscrowState}

theorem lastListed_spec {index : JsNumber}
    {child : EscrowState} (h : lastListed frozen children index = some child) :
    child ∈ children ∧ ∃ d, child.trancheChild = some d ∧ d.planId = frozen.planId ∧
      d.index = index := by
  obtain ⟨hmem, hlisted⟩ := List.mem_filter.mp (List.mem_of_getLast? h)
  obtain ⟨d, hd, hmatch⟩ := (Option.any_eq_true _ _).mp hlisted
  rw [Bool.and_eq_true, decide_eq_true_eq, decide_eq_true_eq] at hmatch
  exact ⟨hmem, d, hd, hmatch⟩

theorem exists_lastListed {index : JsNumber}
    {child : EscrowState} (hmem : child ∈ children) (hlisted : isListed frozen index child = true) :
    ∃ last, lastListed frozen children index = some last := by
  have hne : children.filter (isListed frozen index) ≠ [] :=
    List.ne_nil_of_mem (List.mem_filter.mpr ⟨hmem, hlisted⟩)
  exact ⟨_, List.getLast?_eq_some_getLast hne⟩

/-! ### The rows of a plan -/

def listedRow (host : Host) (parentId : String) (frozen : TranchePlan)
    (children : List EscrowState) (t : TrancheDescriptor) : Except JsError PlanRow :=
  trancheRow host parentId frozen t (lastListed frozen children t.index)

theorem scanTranches_rows {scan scan' : PlanScan}
    (h : scanTranches host parentId frozen (childrenByIndex frozen children) ts scan = .ok scan') :
    ∃ rows, List.Forall₂ (fun t row => listedRow host parentId frozen children t = .ok row) ts rows ∧
      scan'.rows = scan.rows ++ rows := by
  induction ts generalizing scan with
  | nil =>
    cases h
    exact ⟨[], List.Forall₂.nil, (List.append_nil _).symm⟩
  | cons t ts ih =>
    rw [scanTranches, childrenByIndex_get] at h
    obtain ⟨row, hrow, h⟩ := bind_eq_ok.mp h
    obtain ⟨rows, hrows, heq⟩ := ih h
    refine ⟨row :: rows, List.Forall₂.cons hrow hrows, ?_⟩
    rw [heq, PlanScan.push, List.append_assoc, List.singleton_append]

theorem scanTranches_ok (scan : PlanScan)
    (h : ∀ t ∈ ts, ∃ row, listedRow host parentId frozen children t = .ok row) :
    ∃ scan', scanTranches host parentId frozen (childrenByIndex frozen children) ts scan
      = .ok scan' := by
  induction ts generalizing scan with
  | nil => exact ⟨scan, rfl⟩
  | cons t ts ih =>
    obtain ⟨⟨row, hrow⟩, hrest⟩ := List.forall_mem_cons.mp h
    rw [listedRow] at hrow
    rw [scanTranches, childrenByIndex_get, hrow, ok_bind]
    exact ih _ hrest

theorem listedRow_ok (hvalid : validatePlanStart frozen.toPlanStartPayload = none)
    (hchildren : ∀ c ∈ children, Reached host c)
    (ht : t ∈ frozen.tranches) : ∃ row, listedRow host parentId frozen children t = .ok row := by
  obtain ⟨i, hi⟩ := List.getElem?_of_mem ht
  have hindex := index_of_valid hvalid hi
  obtain ⟨hlt, -⟩ := List.getElem?_eq_some_iff.mp hi
  rw [listedRow]
  cases hlast : lastListed frozen children t.index with
  | none =>
    obtain ⟨id, hid⟩ := @trancheChildId_natCast host parentId frozen.planId i
    rw [trancheRow, hindex, hid]
    exact ⟨_, rfl⟩
  | some c =>
    obtain ⟨hmem, d, hd, -, hdIndex⟩ := lastListed_spec hlast
    obtain ⟨p, hcreate, hchild⟩ := (hchildren c hmem).childCreate
    obtain ⟨error, herror⟩ := @verifyTrancheChild_ok host parentId frozen.eventId c.id _ _ _ _
      (hchild.trans hd) (hdIndex.trans hindex) hlt
    rw [trancheRow, childError, hcreate]
    dsimp only
    rw [herror]
    exact ⟨_, rfl⟩

theorem derivePlanState_ok (hparent : Reached host parent)
    (hplan : parent.tranchePlan = some frozen) (hchildren : ∀ c ∈ children, Reached host c) :
    ∃ scan, derivePlanState host parent children = .ok (some (scan.planState frozen)) ∧
      scanTranches host parent.id frozen (childrenByIndex frozen children) frozen.tranches
        ⟨[], 0, frozen.totalMsats, none⟩ = .ok scan ∧
      List.Forall₂ (fun t row => listedRow host parent.id frozen children t = .ok row)
        frozen.tranches scan.rows := by
  have hvalid := hparent.validPlan hplan
  obtain ⟨scan, hscan⟩ := @scanTranches_ok host _ _ parent.id _
    ⟨[], 0, frozen.totalMsats, none⟩ fun t ht => listedRow_ok hvalid hchildren ht
  obtain ⟨rows, hrows, heq⟩ := scanTranches_rows hscan
  rw [List.nil_append] at heq
  refine ⟨scan, ?_, hscan, heq ▸ hrows⟩
  rw [derivePlanState, hplan]
  dsimp only
  rw [hscan]
  rfl

/-! ### Strangers among the children -/

def Polluted (host : Host) (parentId : String) (frozen : TranchePlan)
    (children children' : List EscrowState) : Prop :=
  ∃ extra, (∀ c ∈ extra, ¬ Verified host parentId frozen c) ∧ children'.Perm (children ++ extra)

def HasVerified (host : Host) (parentId : String) (frozen : TranchePlan)
    (children : List EscrowState) (t : TrancheDescriptor) : Prop :=
  ∃ c ∈ children, isListed frozen t.index c = true ∧ Verified host parentId frozen c

structure LooksLike (host : Host) (parentId : String) (frozen : TranchePlan)
    (c c' : EscrowState) : Prop where
  id : c'.id = c.id
  status : c'.status = c.status
  error : childError host parentId frozen c' = childError host parentId frozen c

theorem trancheRow_eq_iff {c c' : EscrowState} {row row' : PlanRow}
    (hrow : trancheRow host parentId frozen t (some c) = .ok row)
    (hrow' : trancheRow host parentId frozen t (some c') = .ok row') :
    row' = row ↔ LooksLike host parentId frozen c c' := by
  obtain ⟨error, herror, hrow⟩ := bind_eq_ok.mp hrow
  obtain ⟨error', herror', hrow'⟩ := bind_eq_ok.mp hrow'
  cases hrow
  cases hrow'
  constructor
  · intro h
    obtain ⟨hid, -, -, hstatus, -, hverdict⟩ := PlanRow.mk.inj h
    exact ⟨hid, hstatus, by rw [herror, herror', hverdict]⟩
  · rintro ⟨hid, hstatus, hverdict⟩
    rw [herror, herror', Except.ok.injEq] at hverdict
    rw [hid, hstatus, hverdict]

/-- Unverifiable children and the order of the list change nothing for the tranches with a verified
child if and only if the child listed last under each of them looks the same. -/
theorem derivePlanState_ignores (hparent : Reached host parent) {frozen : TranchePlan}
    (hplan : parent.tranchePlan = some frozen) {children children' : List EscrowState}
    (hchildren : ∀ c ∈ children, Reached host c) (hchildren' : ∀ c ∈ children', Reached host c)
    (hpolluted : Polluted host parent.id frozen children children') :
    ∃ plan plan', derivePlanState host parent children = .ok (some plan) ∧
      derivePlanState host parent children' = .ok (some plan') ∧
      ((∀ (i : ℕ) (t : TrancheDescriptor), frozen.tranches[i]? = some t →
          HasVerified host parent.id frozen children t →
          plan'.children[i]? = plan.children[i]?) ↔
        ∀ t ∈ frozen.tranches, HasVerified host parent.id frozen children t →
          ∀ c c', lastListed frozen children t.index = some c →
            lastListed frozen children' t.index = some c' →
            LooksLike host parent.id frozen c c') := by
  obtain ⟨scan, hderive, -, hrows⟩ := derivePlanState_ok hparent hplan hchildren
  obtain ⟨scan', hderive', -, hrows'⟩ := derivePlanState_ok hparent hplan hchildren'
  refine ⟨_, _, hderive, hderive', ?_⟩
  change (∀ (i : ℕ) (t : TrancheDescriptor), frozen.tranches[i]? = some t →
    HasVerified host parent.id frozen children t → scan'.rows[i]? = scan.rows[i]?) ↔ _
  -- The two rows of a tranche that has a verified child come from the children listed last.
  have hrowsAt {i : ℕ} {t : TrancheDescriptor} (ht : frozen.tranches[i]? = some t)
      (hverified : HasVerified host parent.id frozen children t) :
      ∃ c c' row row', lastListed frozen children t.index = some c ∧
        lastListed frozen children' t.index = some c' ∧
        scan.rows[i]? = some row ∧ scan'.rows[i]? = some row' ∧
        trancheRow host parent.id frozen t (some c) = .ok row ∧
        trancheRow host parent.id frozen t (some c') = .ok row' := by
    obtain ⟨v, hv, hlisted, -⟩ := hverified
    obtain ⟨extra, -, hperm⟩ := hpolluted
    obtain ⟨c, hc⟩ := exists_lastListed hv hlisted
    obtain ⟨c', hc'⟩ := exists_lastListed
      (hperm.mem_iff.mpr (List.mem_append_left extra hv)) hlisted
    obtain ⟨hlt, hget⟩ := List.getElem?_eq_some_iff.mp ht
    have hlength := hrows.length_eq
    have hlength' := hrows'.length_eq
    have hrow := hrows.get hlt (by omega)
    have hrow' := hrows'.get hlt (by omega)
    rw [List.get_eq_getElem, hget, listedRow, hc] at hrow
    rw [List.get_eq_getElem, hget, listedRow, hc'] at hrow'
    exact ⟨c, c', _, _, hc, hc', List.getElem?_eq_getElem _, List.getElem?_eq_getElem _, hrow,
      hrow'⟩
  constructor
  · intro hsame t ht hverified c c' hc hc'
    obtain ⟨i, hi⟩ := List.getElem?_of_mem ht
    obtain ⟨d, d', row, row', hd, hd', hrow, hrow', hok, hok'⟩ := hrowsAt hi hverified
    have heq := hsame i t hi hverified
    rw [hrow, hrow', Option.some.injEq] at heq
    rw [hc, Option.some.injEq] at hd
    rw [hc', Option.some.injEq] at hd'
    subst hd hd'
    exact (trancheRow_eq_iff hok hok').mp heq
  · intro hlooks i t ht hverified
    obtain ⟨c, c', row, row', hc, hc', hrow, hrow', hok, hok'⟩ := hrowsAt ht hverified
    rw [hrow, hrow', Option.some.injEq]
    exact (trancheRow_eq_iff hok hok').mpr
      (hlooks t (List.mem_of_getElem? ht) hverified c c' hc hc')

theorem lastListed_append {index : JsNumber}
    {c : EscrowState} (h : isListed frozen index c = true) :
    lastListed frozen (children ++ [c]) index = some c := by
  rw [lastListed, List.filter_append, List.filter_singleton, h, cond_true, List.getLast?_concat]

/-! ### A sample plan -/

def sampleTermsDigest : String :=
  "aeb7026e6ab166da4709b9c4827d92484579a05e1c3c43a3becd691499b08c62"

def sampleChildId : ℕ → String
  | 0 => "2538a5958aeade5aaebbc0f3715c18083932e6f4eaad6df4f2f600b3f49dd0cf"
  | _ => "c202887ef441083e0946a413e099db16e895dc424b26d697820fe7ab3bba600a"

def sampleChildText (index : ℕ) : String :=
  "chama-tranche-child-v1\x00sm_sample\x00" ++ hexKey 'e' ++ "\x00" ++ toString index

def planHost : Host :=
  { silentHost with
    sha256Hex := fun text =>
      if text = sampleChildText 0 then sampleChildId 0
      else if text = sampleChildText 1 then sampleChildId 1
      else sampleTermsDigest }

/-- The PLAN_START of two slices of two million sats. -/
def samplePlanFrozen : ParsedEscrowEvent := sampleEvent '8' 'a' 1800000030 (.planStart {
  planId := hexKey 'e'
  total := 2
  totalMsats := 4000000000
  buyerPubkey := hexKey 'b'
  sellerPubkey := hexKey 'a'
  arbiterPubkey := hexKey 'c'
  termsDigest := sampleTermsDigest
  coordinatorPubkey := hexKey 'a'
  bitcoinNetwork := .mainnet
  settlementPolicy := some settlementPolicyEcashSlices
  sliceCount := some 2
  sliceCapMsats := some 2000000000
  tranches := [⟨0, 2000000000⟩, ⟨1, 2000000000⟩]
  startedAt := 1800000030 })

def sampleChildCreate (author : Char) (escrowId : String) (index : ℕ) : ParsedEscrowEvent where
  raw := (sampleEvent '7' author 1800000040 (.complete ⟨0⟩)).raw
  escrowId
  payload := .create {
    description := "coins"
    amountMsats := 2000000000
    category := "p2p-trade"
    mintUrl := "https://mint"
    platformFeeBps := 0
    platformFeePubkey := hexKey 'd'
    expirySeconds := 3600
    communityArbiters := .arr [.str (hexKey 'c')]
    trancheChild := some {
      parent := "sm_sample"
      planId := hexKey 'e'
      planStartEventId := hexKey '8'
      index := .ofInt index
      total := 2
      totalMsats := 4000000000
      buyerPubkey := hexKey 'b'
      sellerPubkey := hexKey 'a'
      arbiterPubkey := hexKey 'c'
      termsDigest := sampleTermsDigest
      coordinatorPubkey := hexKey author
      bitcoinNetwork := .mainnet }
    createdAt := 1800000040 }

def sampleParent : Option EscrowState :=
  liveTrade planHost slicedCreate [sampleJoin, samplePlanFrozen]

def samplePlanChild (author : Char) (escrowId : String) (index : ℕ)
    (events : List ParsedEscrowEvent) : Option EscrowState :=
  liveTrade planHost (sampleChildCreate author escrowId index)
    (events.map fun e => { e with escrowId })

def sampleChild (index : ℕ) (events : List ParsedEscrowEvent) : Option EscrowState :=
  samplePlanChild 'a' (sampleChildId index) index events

/-- A stranger's trade that names the plan and its first index. -/
def sampleStranger : Option EscrowState := samplePlanChild 'f' "sm_stranger" 0 []

theorem samplePlanChild_reached {author : Char} {escrowId : String} {index : ℕ}
    {events : List ParsedEscrowEvent} {c : EscrowState}
    (h : samplePlanChild author escrowId index events = some c) : Reached planHost c :=
  liveTrade_reached planHost h

theorem exists_of_planTrades {first second : Option EscrowState}
    {check : EscrowState → EscrowState → EscrowState → Bool}
    (hfirst : ∀ c, first = some c → Reached planHost c)
    (hsecond : ∀ c, second = some c → Reached planHost c)
    (h : (sampleParent.any fun parent => first.any fun c =>
      second.any fun d => check parent c d) = true) :
    ∃ parent c d, Reached planHost parent ∧ Reached planHost c ∧ Reached planHost d ∧
      check parent c d = true := by
  obtain ⟨parent, hparent, h⟩ := (Option.any_eq_true _ _).mp h
  obtain ⟨c, hc, h⟩ := (Option.any_eq_true _ _).mp h
  obtain ⟨d, hd, h⟩ := (Option.any_eq_true _ _).mp h
  exact ⟨parent, c, d, liveTrade_reached planHost hparent, hfirst c hc, hsecond d hd, h⟩

/-- The stranger's trade listed before the child. -/
theorem stranger_listed_first : ∃ parent c stranger plan plan',
    derivePlanState planHost parent [c] = .ok (some plan) ∧
      derivePlanState planHost parent [stranger, c] = .ok (some plan') ∧
      plan'.children[0]? = plan.children[0]? := by
  have hrun : (sampleParent.any fun parent => (sampleChild 0 []).any fun c =>
      sampleStranger.any fun stranger => parent.tranchePlan.any fun frozen =>
        frozen.tranches.any fun t => frozen.tranches[0]? = some t && isListed frozen t.index c
          && (childError planHost parent.id frozen c).toOption = some none
          && (childError planHost parent.id frozen stranger).toOption ≠ some none) = true := by
    decide +kernel
  obtain ⟨parent, c, stranger, hparent, hc, hstranger, h⟩ := exists_of_planTrades
    (fun _ => samplePlanChild_reached) (fun _ => samplePlanChild_reached) hrun
  obtain ⟨frozen, hplan, h⟩ := (Option.any_eq_true _ _).mp h
  obtain ⟨t, ht, h⟩ := List.any_eq_true.mp h
  simp only [Bool.and_eq_true, decide_eq_true_eq] at h
  obtain ⟨⟨⟨hfirst, hlisted⟩, hverified⟩, hunverified⟩ := h
  have hc' : Verified planHost parent.id frozen c := verified_iff.mpr hverified
  have hpolluted : Polluted planHost parent.id frozen [c] [stranger, c] := by
    refine ⟨[stranger], fun d hd hd' => hunverified ?_, List.Perm.swap c stranger []⟩
    rw [List.mem_singleton.mp hd] at hd'
    exact verified_iff.mp hd'
  obtain ⟨plan, plan', hderive, hderive', hiff⟩ := derivePlanState_ignores hparent hplan
    (fun d (hd : d ∈ [c]) => List.mem_singleton.mp hd ▸ hc)
    (fun d hd => by rcases List.mem_pair.mp hd with rfl | rfl <;> assumption) hpolluted
  refine ⟨parent, c, stranger, plan, plan', hderive, hderive',
    hiff.mpr (fun u hu hverified v v' hv hv' => ?_) 0 t hfirst ⟨c, List.mem_singleton_self c,
      hlisted, hc'⟩⟩
  obtain ⟨d, hd, hdListed, -⟩ := hverified
  rw [List.mem_singleton.mp hd] at hdListed
  rw [show [stranger, c] = [stranger] ++ [c] from rfl, lastListed_append hdListed] at hv'
  rw [show [c] = [] ++ [c] from rfl, lastListed_append hdListed] at hv
  cases hv
  cases hv'
  exact ⟨rfl, rfl, rfl⟩

/-- The stranger's trade listed after the child takes its row. -/
theorem stranger_listed_last : ∃ parent frozen c stranger plan plan',
    Reached planHost parent ∧ Reached planHost c ∧ Reached planHost stranger ∧
      parent.tranchePlan = some frozen ∧ Verified planHost parent.id frozen c ∧
      ¬ Verified planHost parent.id frozen stranger ∧
      derivePlanState planHost parent [c] = .ok (some plan) ∧
      derivePlanState planHost parent [c, stranger] = .ok (some plan') ∧
      plan'.children[0]? ≠ plan.children[0]? := by
  have hrun : (sampleParent.any fun parent => (sampleChild 0 []).any fun c =>
      sampleStranger.any fun stranger => parent.tranchePlan.any fun frozen =>
        (childError planHost parent.id frozen c).toOption = some none
          && (childError planHost parent.id frozen stranger).toOption ≠ some none
          && (derivePlanState planHost parent [c]).toOption.any fun plan => plan.any fun plan =>
            (derivePlanState planHost parent [c, stranger]).toOption.any fun plan' =>
              plan'.any fun plan' => plan'.children[0]? ≠ plan.children[0]?) = true := by
    decide +kernel
  obtain ⟨parent, c, stranger, hparent, hc, hstranger, h⟩ := exists_of_planTrades
    (fun _ => samplePlanChild_reached) (fun _ => samplePlanChild_reached) hrun
  obtain ⟨frozen, hplan, h⟩ := (Option.any_eq_true _ _).mp h
  rw [Bool.and_eq_true, Bool.and_eq_true, decide_eq_true_eq, decide_eq_true_eq] at h
  obtain ⟨⟨hverified, hunverified⟩, h⟩ := h
  obtain ⟨_, hderive, h⟩ := exists_ok_of_any h
  obtain ⟨plan, rfl, h⟩ := (Option.any_eq_true _ _).mp h
  obtain ⟨_, hderive', h⟩ := exists_ok_of_any h
  obtain ⟨plan', rfl, hne⟩ := (Option.any_eq_true _ _).mp h
  exact ⟨parent, frozen, c, stranger, plan, plan', hparent, hc, hstranger, hplan,
    verified_iff.mpr hverified, fun hd => hunverified (verified_iff.mp hd), hderive, hderive',
    of_decide_eq_true hne⟩

/-! ### The order of funding -/

def settledMsats (frozen : TranchePlan) (n : ℕ) : ℤ :=
  ((frozen.tranches.take n).map TrancheDescriptor.msats).sum

theorem settledMsats_succ {n : ℕ} (ht : frozen.tranches[n]? = some t) :
    settledMsats frozen (n + 1) = settledMsats frozen n + t.msats := by
  rw [settledMsats, settledMsats, List.take_add_one, ht, Option.toList_some, List.map_append,
    List.sum_append, List.map_singleton, List.sum_singleton]

theorem settledMsats_bounds (hsums : PlanSums frozen.toPlanStartPayload) (n : ℕ) :
    0 ≤ settledMsats frozen n ∧
      settledMsats frozen n ≤ (frozen.tranches.map TrancheDescriptor.msats).sum := by
  have hnonneg {ts : List TrancheDescriptor} (hsub : ts ⊆ frozen.tranches) :
      0 ≤ (ts.map TrancheDescriptor.msats).sum := by
    refine List.sum_nonneg fun x hx => ?_
    obtain ⟨t, ht, rfl⟩ := List.mem_map.mp hx
    exact (hsums.passed t (hsub ht)).pos.le
  have hsplit : settledMsats frozen n
      + ((frozen.tranches.drop n).map TrancheDescriptor.msats).sum
      = (frozen.tranches.map TrancheDescriptor.msats).sum := by
    rw [settledMsats, ← List.sum_append, ← List.map_append, List.take_append_drop]
  have htake := hnonneg (List.take_subset n frozen.tranches)
  have hdrop := hnonneg (List.drop_subset n frozen.tranches)
  rw [settledMsats] at hsplit ⊢
  omega

def PlanRow.settled (row : PlanRow) : Bool := row.valid && row.status = .completed

/-- What the loop of `derivePlanState` has gathered after `n` tranches: it counts the settled rows
from the start, up to the first that is not. -/
structure Scanned (frozen : TranchePlan) (n : ℕ) (scan : PlanScan) : Prop where
  length : scan.rows.length = n
  count_le : scan.settledCount ≤ n
  counted : ∀ j < scan.settledCount, ∃ row, scan.rows[j]? = some row ∧ row.settled = true
  next : ∀ row, scan.rows[scan.settledCount]? = some row → row.settled = false
  outstanding : scan.outstandingMsats =
    .fin (((frozen.tranches.map TrancheDescriptor.msats).sum
      - settledMsats frozen scan.settledCount : ℤ) : ℚ)
  stopped : scan.stoppedReason = none →
    ∀ row ∈ scan.rows, row.valid = true ∨ row.error = some "missing child"

theorem Scanned.push {n : ℕ} {scan : PlanScan}
    {found : Bool} {row : PlanRow} (hvalid : validatePlanStart frozen.toPlanStartPayload = none)
    (h : Scanned frozen n scan) (ht : frozen.tranches[n]? = some t)
    (hfound : found = false → row.error = some "missing child") :
    Scanned frozen (n + 1) (scan.push t found row) := by
  have hsums := planSums_of_valid hvalid
  obtain ⟨hlength, hle, hcounted, hnext, houtstanding, hstopped⟩ := h
  have hindex := index_of_valid hvalid ht
  obtain ⟨hlt, -⟩ := List.getElem?_eq_some_iff.mp ht
  have hhundred : frozen.tranches.length ≤ 100 := hsums.small
  have hcount : JsNumber.ofInt scan.settledCount = .fin (scan.settledCount : ℚ) :=
    JsNumber.ofInt_natCast (by rw [JsNumber.maxExact]; omega)
  have hmatch : t.index.strictEq (.ofInt scan.settledCount) = true ↔ n = scan.settledCount := by
    rw [hindex, hcount, JsNumber.strictEq, Bool.and_eq_true, decide_eq_true_eq, decide_eq_true_eq,
      JsNumber.fin.injEq, Nat.cast_inj]
    exact ⟨fun h => h.2, fun h => ⟨JsNumber.noConfusion, h⟩⟩
  have hstoppedNext : (scan.push t found row).stoppedReason = none →
      ∀ row' ∈ (scan.push t found row).rows,
        row'.valid = true ∨ row'.error = some "missing child" := by
    intro hnone row' hrow'
    simp only [PlanScan.push] at hnone hrow'
    split_ifs at hnone with hbad
    rcases List.mem_append.mp hrow' with hold | hnew
    · exact hstopped hnone row' hold
    · rw [List.mem_singleton.mp hnew]
      cases hrowValid : row.valid with
      | true => exact Or.inl rfl
      | false =>
        rw [hnone, hrowValid] at hbad
        exact Or.inr (hfound (by simpa using hbad))
  have holdRow {j : ℕ} (hj : j < n) : (scan.rows ++ [row])[j]? = scan.rows[j]? :=
    List.getElem?_append_left (by omega)
  have hnewRow : (scan.rows ++ [row])[n]? = some row := by
    rw [← hlength]
    exact List.getElem?_concat_length
  have hlengthNext : (scan.rows ++ [row]).length = n + 1 := by
    rw [List.length_append, hlength, List.length_singleton]
  by_cases hsettles : row.settled = true ∧ n = scan.settledCount
  · -- The row goes on from the settled ones.
    obtain ⟨hsettled, hn⟩ := hsettles
    have hpush : scan.push t found row = { scan.push t found row with
        settledCount := n + 1
        outstandingMsats := scan.outstandingMsats - t.amountMsats } := by
      have hcond : (row.valid && decide (row.status = .completed)
          && t.index.strictEq (.ofInt scan.settledCount)) = true := by
        rw [Bool.and_eq_true]
        exact ⟨hsettled, hmatch.mpr hn⟩
      simp only [PlanScan.push, hcond, if_true, hn]
    refine ⟨?_, ?_, ?_, ?_, ?_, hstoppedNext⟩
    · exact hlengthNext
    · rw [hpush]
    · rw [hpush]
      intro j hj
      rcases (Nat.lt_succ_iff.mp hj).lt_or_eq with hj | rfl
      · obtain ⟨row', hrow', hsettled'⟩ := hcounted j (hn ▸ hj)
        exact ⟨row', (holdRow hj).trans hrow', hsettled'⟩
      · exact ⟨row, hnewRow, hsettled⟩
    · rw [hpush]
      intro row' hrow'
      have : (scan.rows ++ [row])[n + 1]? = none := List.getElem?_eq_none (by omega)
      exact absurd (this.symm.trans hrow') (fun h => by cases h)
    · have hamount := (hsums.passed t (List.mem_of_getElem? ht)).amount
      have hbounds := settledMsats_bounds hsums (n + 1)
      have hstep := settledMsats_succ ht
      have htotal : (frozen.tranches.map TrancheDescriptor.msats).sum.natAbs < JsNumber.maxExact := by
        obtain ⟨z, hz, heq⟩ := JsNumber.isSafeInteger_iff.mp hsums.safe
        rw [hsums.total, JsNumber.intCast_inj] at heq
        rw [heq]
        exact hz
      rw [hpush]
      dsimp only
      rw [houtstanding, hamount, ← hn, JsNumber.sub_intCast (by omega), hstep]
      congr 2
      omega
  · -- The count stays: the row is not settled, or one before it was not.
    have hpush : (scan.push t found row).settledCount = scan.settledCount ∧
        (scan.push t found row).outstandingMsats = scan.outstandingMsats := by
      have hcond : ¬ (row.valid && decide (row.status = .completed)
          && t.index.strictEq (.ofInt scan.settledCount)) = true := by
        rw [Bool.and_eq_true, hmatch]
        exact hsettles
      simp only [PlanScan.push, if_neg hcond, and_self]
    refine ⟨hlengthNext, ?_, ?_, ?_, ?_, hstoppedNext⟩
    · rw [hpush.1]
      omega
    · rw [hpush.1]
      intro j hj
      obtain ⟨row', hrow', hsettled'⟩ := hcounted j hj
      exact ⟨row', (holdRow (by omega)).trans hrow', hsettled'⟩
    · rw [hpush.1]
      intro row' hrow'
      rcases hle.lt_or_eq with hlt | heq
      · exact hnext row' ((holdRow hlt).symm.trans hrow')
      · rw [heq] at hrow'
        obtain rfl := Option.some.inj (hnewRow.symm.trans hrow')
        exact Bool.eq_false_iff.mpr fun hsettled => hsettles ⟨hsettled, heq.symm⟩
    · rw [hpush.1, hpush.2]
      exact houtstanding

theorem scanTranches_scanned (hvalid : validatePlanStart frozen.toPlanStartPayload = none)
    {scan : PlanScan}
    (h : scanTranches host parentId frozen (childrenByIndex frozen children) frozen.tranches
      ⟨[], 0, frozen.totalMsats, none⟩ = .ok scan) :
    Scanned frozen frozen.tranches.length scan := by
  have hrun (done ts : List TrancheDescriptor) (start : PlanScan)
      (hsplit : done ++ ts = frozen.tranches) (hstart : Scanned frozen done.length start)
      (h : scanTranches host parentId frozen (childrenByIndex frozen children) ts start
        = .ok scan) : Scanned frozen frozen.tranches.length scan := by
    induction ts generalizing done start with
    | nil =>
      cases h
      rw [← hsplit, List.append_nil]
      exact hstart
    | cons t ts ih =>
      rw [scanTranches] at h
      obtain ⟨row, hrow, h⟩ := bind_eq_ok.mp h
      have ht : frozen.tranches[done.length]? = some t := by
        rw [← hsplit, List.getElem?_append_right le_rfl, Nat.sub_self]
        rfl
      refine ih (done ++ [t]) _ (by rw [List.append_assoc, List.singleton_append, hsplit]) ?_ h
      rw [List.length_append, List.length_singleton]
      refine hstart.push hvalid ht fun hmissing => ?_
      rw [Option.isSome_eq_false_iff, Option.isNone_iff_eq_none] at hmissing
      rw [hmissing] at hrow
      obtain ⟨id, -, hrow⟩ := bind_eq_ok.mp hrow
      cases hrow
      rfl
  refine hrun [] frozen.tranches _ rfl ⟨rfl, le_rfl, ?_, ?_, ?_, ?_⟩ h
  · exact fun j hj => absurd hj (Nat.not_lt_zero j)
  · exact fun row hrow => by cases hrow
  · rw [(planSums_of_valid hvalid).total, settledMsats]
    simp
  · exact fun _ row hrow => by cases hrow

/-- What stands behind the funding of a child: it has the id of the first index that is not
completed, and every index before it is. -/
structure FundsNext (host : Host) (parentId : String) (frozen : TranchePlan)
    (children : List EscrowState) (childId : String) (outstanding : JsNumber) (k : ℕ) : Prop where
  lt : k < frozen.tranches.length
  id : trancheChildId host parentId frozen.planId (.fin (k : ℚ)) = .ok childId
  open_ : ∃ c, lastListed frozen children (.fin (k : ℚ)) = some c ∧ c.id = childId ∧
    c.status = .created ∧ Verified host parentId frozen c
  before : ∀ j < k, ∃ c, lastListed frozen children (.fin (j : ℚ)) = some c ∧
    c.status = .completed ∧ Verified host parentId frozen c
  total : frozen.totalMsats
    = .fin (((frozen.tranches.map TrancheDescriptor.msats).sum : ℤ) : ℚ)
  outstanding : outstanding = .fin (((frozen.tranches.map TrancheDescriptor.msats).sum
    - settledMsats frozen k : ℤ) : ℚ)

theorem canFundTranche_eq_true {childId : String} {plan : PlanState}
    (hderive : derivePlanState host parent children = .ok (some plan)) :
    canFundTranche host parent children childId = .ok true ↔
      plan.activeChildId = some childId ∧ plan.nextSafeAction = .fundActiveChild := by
  rw [canFundTranche, hderive, ok_bind, pure_eq_ok, Option.any_some, Bool.and_eq_true,
    decide_eq_true_eq, decide_eq_true_eq]

theorem PlanScan.active_of_fund {scan : PlanScan} {childId : String}
    (hactive : (scan.planState frozen).activeChildId = some childId)
    (hfund : (scan.planState frozen).nextSafeAction = .fundActiveChild) :
    scan.stoppedReason = none ∧ (∀ row ∈ scan.rows, row.error ≠ some "missing child") ∧
      ∃ row ∈ scan.rows, row.index.strictEq (.ofInt scan.settledCount) = true ∧
        row.valid = true ∧ row.id = childId ∧ row.status = .created := by
  rw [PlanScan.planState] at hactive hfund
  dsimp only at hactive hfund
  split_ifs at hfund with hstopped hmissing hcomplete hcreated
  rw [if_neg hstopped] at hactive
  obtain ⟨row, hrow, hid⟩ := Option.map_eq_some_iff.mp hactive
  rw [hrow, Option.any_some, decide_eq_true_eq] at hcreated
  have hfound := List.find?_some hrow
  simp only [Bool.and_eq_true] at hfound
  refine ⟨by simpa using hstopped, fun row' hrow' herror => hmissing ?_, row,
    List.mem_of_find?_eq_some hrow, hfound.1, hfound.2, hid, hcreated⟩
  exact List.any_eq_true.mpr ⟨row', hrow', decide_eq_true herror⟩

theorem verified_of_row {row : PlanRow}
    (hrow : listedRow host parentId frozen children t = .ok row) (hvalid : row.valid = true) :
    ∃ c, lastListed frozen children t.index = some c ∧ Verified host parentId frozen c ∧
      row.id = c.id ∧ row.status = c.status ∧ row.index = t.index := by
  rw [listedRow] at hrow
  cases hlast : lastListed frozen children t.index with
  | none =>
    rw [hlast] at hrow
    obtain ⟨id, -, hrow⟩ := bind_eq_ok.mp hrow
    cases hrow
    cases hvalid
  | some c =>
    rw [hlast] at hrow
    obtain ⟨error, herror, hrow⟩ := bind_eq_ok.mp hrow
    cases hrow
    exact ⟨c, rfl, by rw [Verified, herror, Option.isNone_iff_eq_none.mp hvalid], rfl, rfl, rfl⟩

theorem fundsNext_of_active (hparent : Reached host parent)
    (hplan : parent.tranchePlan = some frozen)
    (hchildren : ∀ c ∈ children, Reached host c) {childId : String} {plan : PlanState}
    (hderive : derivePlanState host parent children = .ok (some plan))
    (hactive : plan.activeChildId = some childId) (hfund : plan.nextSafeAction = .fundActiveChild) :
    ∃ k, FundsNext host parent.id frozen children childId plan.outstandingMsats k := by
  have hvalid := hparent.validPlan hplan
  have hsums := planSums_of_valid hvalid
  obtain ⟨scan, hscanned, hscan, hrows⟩ := derivePlanState_ok hparent hplan hchildren
  cases hderive.symm.trans hscanned
  have hscanned := scanTranches_scanned hvalid hscan
  obtain ⟨hstopped, hpresent, row, hmem, hindex, hrowValid, hid, hcreated⟩ :=
    PlanScan.active_of_fund hactive hfund
  -- The rows stand at the positions of their tranches.
  have hrowAt {j : ℕ} {row : PlanRow} (hrow : scan.rows[j]? = some row) :
      ∃ t, frozen.tranches[j]? = some t ∧ t.index = .fin (j : ℚ) ∧
        listedRow host parent.id frozen children t = .ok row := by
    obtain ⟨hlt, hget⟩ := List.getElem?_eq_some_iff.mp hrow
    have hlength := hrows.length_eq
    have hpair := hrows.get (by omega : j < frozen.tranches.length) hlt
    rw [List.get_eq_getElem, List.get_eq_getElem, hget] at hpair
    have ht : frozen.tranches[j]? = some (frozen.tranches.get ⟨j, by omega⟩) :=
      List.getElem?_eq_getElem _
    exact ⟨_, ht, index_of_valid hvalid ht, hpair⟩
  obtain ⟨k, hk⟩ := List.getElem?_of_mem hmem
  obtain ⟨t, ht, htIndex, hlisted⟩ := hrowAt hk
  obtain ⟨hlt, -⟩ := List.getElem?_eq_some_iff.mp ht
  obtain ⟨c, hlast, hverified, hcId, hcStatus, hcIndex⟩ := verified_of_row hlisted hrowValid
  have hcount : k = scan.settledCount := by
    have hle := hscanned.count_le
    have hhundred : frozen.tranches.length ≤ 100 := hsums.small
    have hofInt : JsNumber.ofInt scan.settledCount = .fin (scan.settledCount : ℚ) :=
      JsNumber.ofInt_natCast (by rw [JsNumber.maxExact]; omega)
    rw [hcIndex, htIndex, hofInt, JsNumber.strictEq, Bool.and_eq_true, decide_eq_true_eq,
      decide_eq_true_eq, JsNumber.fin.injEq, Nat.cast_inj] at hindex
    exact hindex.2
  rw [htIndex] at hlast
  have hcReached := hchildren c (lastListed_spec hlast).1
  obtain ⟨d, hd, hspec⟩ := hverified.spec hcReached
  obtain ⟨-, d', hd', -, hdIndex⟩ := lastListed_spec hlast
  rw [hd, Option.some.injEq] at hd'
  subst hd'
  refine ⟨k, hlt, ?_, ⟨c, hlast, hcId.symm.trans hid, hcStatus.symm.trans hcreated,
    hverified⟩, fun j hj => ?_, hsums.total, ?_⟩
  · rw [← hdIndex, ← hid, hcId]
    exact hspec.id
  · obtain ⟨row', hrow', hsettled⟩ := hscanned.counted j (hcount ▸ hj)
    obtain ⟨t', -, hindex', hlisted'⟩ := hrowAt hrow'
    rw [PlanRow.settled, Bool.and_eq_true, decide_eq_true_eq] at hsettled
    obtain ⟨c', hlast', hverified', -, hstatus', -⟩ := verified_of_row hlisted' hsettled.1
    exact ⟨c', hindex' ▸ hlast', hstatus'.symm.trans hsettled.2, hverified'⟩
  · rw [hcount]
    exact hscanned.outstanding

/-- At most one child of a plan can be funded, and it is the one after those that are verified and
completed; what is outstanding is the total without these. -/
theorem canFundTranche_sequential (hparent : Reached host parent) {frozen : TranchePlan}
    (hplan : parent.tranchePlan = some frozen) {children : List EscrowState}
    (hchildren : ∀ c ∈ children, Reached host c) {childId : String}
    (h : canFundTranche host parent children childId = .ok true) :
    (∀ other, canFundTranche host parent children other = .ok true → other = childId) ∧
      ∃ plan k, derivePlanState host parent children = .ok (some plan) ∧
        FundsNext host parent.id frozen children childId plan.outstandingMsats k := by
  obtain ⟨scan, hderive, -, -⟩ := derivePlanState_ok hparent hplan hchildren
  obtain ⟨hactive, hfund⟩ := (canFundTranche_eq_true hderive).mp h
  obtain ⟨k, hnext⟩ := fundsNext_of_active hparent hplan hchildren hderive hactive hfund
  refine ⟨fun other hother => ?_, _, k, hderive, hnext⟩
  have hotherActive := ((canFundTranche_eq_true hderive).mp hother).1
  exact Option.some.inj (hotherActive.symm.trans hactive)

/-- The amounts of the tranches whose child is verified and completed, summed up. -/
def PlanState.completedMsats (plan : PlanState) : JsNumber :=
  ((plan.children.filter PlanRow.settled).map PlanRow.amountMsats).foldl (· + ·) 0

def sampleChildDone : List ParsedEscrowEvent := [
  sampleEvent '2' 'a' 1800000050 (.lock {
    notesHash := .str "notes"
    shares := .arr ([0, 1, 2].map fun i : ℕ => .obj [("shareIndex", .num (.ofInt i))])
    sellerReceivesMsats := 2000000000
    arbiterFeeMsats := 0
    buyerPubkey := hexKey 'b'
    arbiterPubkey := hexKey 'c'
    lockedAt := 1800000050 }),
  sampleVote '3' 'b' 1800000060 .buyer .release,
  sampleVote '4' 'a' 1800000070 .seller .release,
  sampleResolve 1800000080 .release,
  sampleEvent 'f' 'b' 1800000090 (.claim {
    claimerRole := .buyer
    notesHashVerification := "notes"
    claimedAt := 1800000090 }),
  sampleEvent 'd' 'b' 1800000095 (.complete ⟨1800000095⟩)]

/-- Once the first sample child is completed, the second one is the one to fund. -/
theorem second_child_next : ∃ parent frozen first second plan k,
    parent.tranchePlan = some frozen ∧
      derivePlanState planHost parent [first, second] = .ok (some plan) ∧
      FundsNext planHost parent.id frozen [first, second] (sampleChildId 1)
        plan.outstandingMsats k := by
  have hrun : (sampleParent.any fun parent => (sampleChild 0 sampleChildDone).any fun first =>
      (sampleChild 1 []).any fun second => parent.tranchePlan.isSome
        && (canFundTranche planHost parent [first, second] (sampleChildId 1)).toOption
          = some true) = true := by
    decide +kernel
  obtain ⟨parent, first, second, hparent, hfirst, hsecond, h⟩ := exists_of_planTrades
    (fun _ => samplePlanChild_reached) (fun _ => samplePlanChild_reached) hrun
  rw [Bool.and_eq_true, decide_eq_true_eq] at h
  obtain ⟨hplan, hfund⟩ := h
  obtain ⟨frozen, hplan⟩ := Option.isSome_iff_exists.mp hplan
  obtain ⟨-, plan, k, hderive, hnext⟩ := canFundTranche_sequential hparent hplan
    (fun d hd => by rcases List.mem_pair.mp hd with rfl | rfl <;> assumption)
    (toOption_eq_some.mp hfund)
  exact ⟨parent, frozen, first, second, plan, k, hplan, hderive, hnext⟩

/-- The second sample child, completed before its turn, still counts as outstanding while the first
one can be funded. -/
theorem second_child_early : ∃ parent first second plan,
    Reached planHost parent ∧ Reached planHost first ∧ Reached planHost second ∧
      derivePlanState planHost parent [first, second] = .ok (some plan) ∧
      canFundTranche planHost parent [first, second] (sampleChildId 0) = .ok true ∧
      plan.outstandingMsats ≠ plan.plan.totalMsats - plan.completedMsats := by
  have hrun : (sampleParent.any fun parent => (sampleChild 0 []).any fun first =>
      (sampleChild 1 sampleChildDone).any fun second =>
        (canFundTranche planHost parent [first, second] (sampleChildId 0)).toOption = some true
          && (derivePlanState planHost parent [first, second]).toOption.any fun plan =>
            plan.any fun plan =>
              plan.outstandingMsats ≠ plan.plan.totalMsats - plan.completedMsats) = true := by
    decide +kernel
  obtain ⟨parent, first, second, hparent, hfirst, hsecond, h⟩ := exists_of_planTrades
    (fun _ => samplePlanChild_reached) (fun _ => samplePlanChild_reached) hrun
  rw [Bool.and_eq_true, decide_eq_true_eq] at h
  obtain ⟨hfund, h⟩ := h
  obtain ⟨_, hderive, h⟩ := exists_ok_of_any h
  obtain ⟨plan, rfl, hne⟩ := (Option.any_eq_true _ _).mp h
  exact ⟨parent, first, second, plan, hparent, hfirst, hsecond, hderive,
    toOption_eq_some.mp hfund, of_decide_eq_true hne⟩

end ChamaEscrow
