import ChamaEscrow.Bond.Announcement
import Mathlib.Algebra.BigOperators.Ring.Finset
import Mathlib.Algebra.Order.BigOperators.Group.Finset

/-!
# What a bond licenses

`arbiterBondCapacities` (`arbiters/exposure.ts`): each arbiter's total capacity, the sum of the
distinct bonds announced under the arbiter's key that no other of them renews.

A bond is told apart by its holder and its address together, so an address that two arbiters
announce is counted for both.

* `capacities_get`: the capacity of an arbiter is what lies at the addresses of the arbiter's
  unrenewed bonds.
* `licensed_once_iff`: a set of announcements licenses each deposit once, whatever the chain holds,
  just when no two arbiters announce one address.
-/

namespace ChamaEscrow.Bond

open Js Library

/-! ### The capacity of a list of bonds -/

def tenureGatedCapacity : Bool := false

def tenureFullCapacityDays : ℕ := 30

def tenureMinCapacityFraction : JsNumber := JsNumber.ofRat (1 / 4)

def tenureCapacityMultiplier (tenureDays : Option JsNumber) : JsNumber :=
  match tenureDays with
  | none => tenureMinCapacityFraction
  | some days =>
    if !days.isFinite || days ≤ 0 then tenureMinCapacityFraction
    else if JsNumber.ofInt tenureFullCapacityDays ≤ days then 1
    else
      let ramp := days.divBy tenureFullCapacityDays
      tenureMinCapacityFraction + ramp * (1 - tenureMinCapacityFraction)

def effectiveBondCapacityMsats (actualSats : ℕ) (tenureDays : Option JsNumber) : JsNumber :=
  (JsNumber.ofInt actualSats * 1000 * tenureCapacityMultiplier tenureDays).floor

/-- `CapacityBond`: a bond as the capacity rules see it. -/
structure CapacityBond where
  npub : String
  actualSats : ℕ
  address : Option String := none
  tenureDays : Option JsNumber := none
  fundingTxid : Option String := none
  lineage : Option BondLineage := none

def normPk (value : String) : Option String := normHex value

def CapacityBond.hops (b : CapacityBond) : List BondLineageHop :=
  (b.lineage.map BondLineage.hops).getD []

def renewedKeys (bonds : List CapacityBond) : List String :=
  bonds.flatMap fun b =>
    match normPk b.npub with
    | none => []
    | some npub =>
      (b.hops.filter fun hop => hop.fromTxid ≠ "").map fun hop =>
        npub ++ "|" ++ toLowerCase hop.fromTxid

/-- Whether a bond of `npub` is named as an ancestor. -/
def isRenewed (renewed : List String) (npub : String) (b : CapacityBond) : Bool :=
  b.fundingTxid.any fun txid =>
    txid ≠ "" && renewed.contains (npub ++ "|" ++ toLowerCase txid)

def bondKey (npub : String) (b : CapacityBond) (index : ℕ) : String :=
  npub ++ "|" ++ b.address.getD ("#" ++ toString index)

/-- The capacities so far, and the keys of the bonds they count. -/
structure Tally where
  out : OrderedMap String JsNumber
  seenBonds : List String

def bondMsats (tenureGated : Bool) (b : CapacityBond) : JsNumber :=
  if tenureGated then effectiveBondCapacityMsats b.actualSats b.tenureDays
  else JsNumber.ofInt b.actualSats * 1000

/-- One round of the loop of `arbiterBondCapacities`. -/
def countBond (tenureGated : Bool) (renewed : List String) (tally : Tally)
    (entry : CapacityBond × ℕ) : Tally :=
  match normPk entry.1.npub with
  | none => tally
  | some npub =>
    if isRenewed renewed npub entry.1 then tally
    else if bondKey npub entry.1 entry.2 ∈ tally.seenBonds then tally
    else
      { out := tally.out.set npub ((tally.out.get npub).getD 0 + bondMsats tenureGated entry.1)
        seenBonds := bondKey npub entry.1 entry.2 :: tally.seenBonds }

def arbiterBondCapacities (bonds : List CapacityBond) (tenureGated : Bool) :
    OrderedMap String JsNumber :=
  (bonds.zipIdx.foldl (countBond tenureGated (renewedKeys bonds)) ⟨.empty, []⟩).out

def VerifiedBond.toCapacityBond (b : VerifiedBond) : CapacityBond where
  npub := b.npub
  actualSats := b.actualSats
  address := some b.address
  fundingTxid := b.fundingTxid
  lineage := b.lineage

def licensingBonds (bonds : List VerifiedBond) : List VerifiedBond :=
  bonds.filter fun b => b.funded && b.active && declaresArbiterRole b.roles

def announcedCapacities (commitmentAddress : CommitmentAddress) (network : BitcoinNetwork)
    (view : ChainView) (parsed : List ParsedBondAnnouncement) :
    Except JsError (OrderedMap String JsNumber) := do
  let bonds ← verifyAnnouncements commitmentAddress network view parsed
  return arbiterBondCapacities ((licensingBonds bonds).map VerifiedBond.toCapacityBond)
    tenureGatedCapacity

/-! ### What the loop counts -/

def capacityOf (held : String → ℕ) (addresses : Finset String) : Option JsNumber :=
  if addresses = ∅ then none
  else some (JsNumber.ofInt ((1000 * ∑ d ∈ addresses, held d : ℕ) : ℤ))

/-- The addresses of the bonds of `npub` that are not named as ancestors. -/
def keptAddresses (renewed : List String) (bonds : List VerifiedBond) (npub : String) :
    Finset String :=
  ((bonds.filter fun b => b.npub = npub ∧ isRenewed renewed npub b.toCapacityBond = false).map
    VerifiedBond.address).toFinset

structure Counts (held : String → ℕ) (addresses : String → Finset String) (tally : Tally) :
    Prop where
  seen : ∀ npub address, isLowerHex 64 npub = true →
    (npub ++ "|" ++ address ∈ tally.seenBonds ↔ address ∈ addresses npub)
  out : ∀ npub, tally.out.get npub = capacityOf held (addresses npub)

theorem isLowerHex_length {n : ℕ} {s : String} (h : isLowerHex n s = true) :
    s.toList.length = n := by
  rw [isLowerHex, Bool.and_eq_true, decide_eq_true_eq] at h
  exact h.1

theorem bondKey_inj {npub npub' address address' : String} (h : isLowerHex 64 npub = true)
    (h' : isLowerHex 64 npub' = true) :
    npub ++ "|" ++ address = npub' ++ "|" ++ address' ↔ npub = npub' ∧ address = address' := by
  constructor
  · intro heq
    have hlists := congrArg String.toList heq
    simp only [String.toList_append] at hlists
    have hlength : (npub.toList ++ "|".toList).length = (npub'.toList ++ "|".toList).length := by
      rw [List.length_append, List.length_append, isLowerHex_length h, isLowerHex_length h']
    obtain ⟨hkeys, haddresses⟩ := List.append_inj hlists hlength
    exact ⟨String.toList_inj.mp (List.append_cancel_right hkeys), String.toList_inj.mp haddresses⟩
  · rintro ⟨rfl, rfl⟩
    rfl

variable {held : String → ℕ} {all : Finset String}

theorem ofInt_mul_thousand {n : ℕ} (h : 1000 * n ≤ JsNumber.maxExact) :
    JsNumber.ofInt n * 1000 = JsNumber.ofInt ((1000 * n : ℕ) : ℤ) := by
  have hthousand : (1000 : JsNumber) = .fin ((1000 : ℤ) : ℚ) :=
    JsNumber.ofInt_eq_fin (n := 1000) (by decide)
  have hexact : ((n : ℤ) * 1000).natAbs ≤ JsNumber.maxExact := by omega
  rw [JsNumber.ofInt_eq_fin (n := n) (by omega), hthousand, JsNumber.mul_intCast hexact,
    JsNumber.ofInt_eq_fin (by omega)]
  congr 2
  push_cast
  ring

/-- A deposit that was not counted yet adds its own sats, without rounding. -/
theorem capacityOf_insert (hbound : 1000 * ∑ d ∈ all, held d ≤ JsNumber.maxExact)
    {addresses : Finset String} {d : String} (hd : d ∉ addresses)
    (hall : insert d addresses ⊆ all) :
    some ((capacityOf held addresses).getD 0 + JsNumber.ofInt (held d) * 1000)
      = capacityOf held (insert d addresses) := by
  have hsum : ∑ e ∈ insert d addresses, held e = held d + ∑ e ∈ addresses, held e :=
    Finset.sum_insert hd
  have hle : 1000 * (held d + ∑ e ∈ addresses, held e) ≤ JsNumber.maxExact := by
    rw [← hsum]
    exact le_trans (Nat.mul_le_mul_left _ (Finset.sum_le_sum_of_subset hall)) hbound
  have hzero : (capacityOf held addresses).getD 0
      = JsNumber.ofInt ((1000 * ∑ e ∈ addresses, held e : ℕ) : ℤ) := by
    unfold capacityOf
    split_ifs with h
    · rw [h]
      rfl
    · rfl
  rw [hzero, ofInt_mul_thousand (by omega), JsNumber.add_ofNat (by omega), capacityOf,
    if_neg (Finset.insert_nonempty ..).ne_empty, hsum, Nat.mul_add, Nat.add_comm]

def countedWith (renewed : List String) (addresses : String → Finset String) (b : VerifiedBond)
    (npub : String) : Finset String :=
  if b.npub = npub ∧ isRenewed renewed npub b.toCapacityBond = false then
    insert b.address (addresses npub)
  else addresses npub

variable {addresses : String → Finset String}

variable {b : VerifiedBond}

theorem Counts.countBond (hbound : 1000 * ∑ d ∈ all, held d ≤ JsNumber.maxExact)
    {tally : Tally} {renewed : List String}
    {index : ℕ} (h : Counts held addresses tally) (hhex : isLowerHex 64 b.npub = true)
    (hheld : b.actualSats = held b.address)
    (hall : ∀ npub, countedWith renewed addresses b npub ⊆ all) :
    Counts held (countedWith renewed addresses b)
      (countBond false renewed tally (b.toCapacityBond, index)) := by
  have hpk : normPk b.toCapacityBond.npub = some b.npub := normHex_self hhex
  have hround : Bond.countBond false renewed tally (b.toCapacityBond, index)
      = if isRenewed renewed b.npub b.toCapacityBond then tally
        else if b.npub ++ "|" ++ b.address ∈ tally.seenBonds then tally
        else
          { out := tally.out.set b.npub
              ((tally.out.get b.npub).getD 0 + JsNumber.ofInt b.actualSats * 1000)
            seenBonds := (b.npub ++ "|" ++ b.address) :: tally.seenBonds } := by
    delta Bond.countBond
    rw [hpk]
    rfl
  rw [hround]
  by_cases hrenewed : isRenewed renewed b.npub b.toCapacityBond = true
  · -- A renewed bond changes neither the tally nor the addresses.
    have hsame : countedWith renewed addresses b = addresses := by
      funext npub
      rw [countedWith, if_neg]
      rintro ⟨rfl, hnot⟩
      rw [hrenewed] at hnot
      cases hnot
    rwa [if_pos hrenewed, hsame]
  · rw [if_neg hrenewed]
    rw [Bool.not_eq_true] at hrenewed
    have hown : countedWith renewed addresses b b.npub = insert b.address (addresses b.npub) := by
      rw [countedWith, if_pos ⟨rfl, hrenewed⟩]
    have hother {npub : String} (hne : b.npub ≠ npub) :
        countedWith renewed addresses b npub = addresses npub := by
      rw [countedWith, if_neg fun hc => hne hc.1]
    by_cases hseen : b.npub ++ "|" ++ b.address ∈ tally.seenBonds
    · rw [if_pos hseen]
      have hmem : b.address ∈ addresses b.npub := (h.seen _ _ hhex).mp hseen
      have hsame : countedWith renewed addresses b = addresses := by
        funext npub
        by_cases hne : b.npub = npub
        · rw [← hne, hown, Finset.insert_eq_of_mem hmem]
        · exact hother hne
      rwa [hsame]
    · rw [if_neg hseen]
      have hnew : b.address ∉ addresses b.npub := fun hmem => hseen ((h.seen _ _ hhex).mpr hmem)
      refine ⟨fun npub address hnpub => ?_, fun npub => ?_⟩
      · rw [List.mem_cons, h.seen npub address hnpub, bondKey_inj hnpub hhex]
        by_cases hne : b.npub = npub
        · subst hne
          rw [hown, Finset.mem_insert]
          simp
        · rw [hother hne]
          simp [Ne.symm hne]
      · rw [OrderedMap.get_set]
        by_cases hne : b.npub = npub
        · subst hne
          have hallOwn : insert b.address (addresses b.npub) ⊆ all := hown ▸ hall b.npub
          rw [if_pos rfl, h.out, hown, ← capacityOf_insert hbound hnew hallOwn, ← hheld]
        · rw [if_neg (Ne.symm hne), h.out, hother hne]

theorem Counts.foldl (hbound : 1000 * ∑ d ∈ all, held d ≤ JsNumber.maxExact)
    (renewed : List String) (bonds : List VerifiedBond) :
    ∀ {addresses : String → Finset String} {tally : Tally} (start : ℕ),
      Counts held addresses tally → (∀ b ∈ bonds, isLowerHex 64 b.npub = true) →
      (∀ b ∈ bonds, b.actualSats = held b.address) → (∀ b ∈ bonds, b.address ∈ all) →
      (∀ npub, addresses npub ⊆ all) →
      Counts held (fun npub => addresses npub ∪ keptAddresses renewed bonds npub)
        (((bonds.map VerifiedBond.toCapacityBond).zipIdx start).foldl
          (Bond.countBond false renewed) tally) := by
  induction bonds with
  | nil =>
    intro addresses tally start h _ _ _ _
    simpa [keptAddresses] using h
  | cons b bonds ih =>
    intro addresses tally start h hhex hheld hmem hall
    have hallWith (npub : String) : countedWith renewed addresses b npub ⊆ all := by
      rw [countedWith]
      split_ifs
      · exact Finset.insert_subset (hmem b (List.mem_cons_self ..)) (hall npub)
      · exact hall npub
    have hstep : Counts held _ (Bond.countBond false renewed tally (b.toCapacityBond, start)) :=
      h.countBond hbound (hhex b (List.mem_cons_self ..)) (hheld b (List.mem_cons_self ..)) hallWith
    have hrest := ih (start + 1) hstep (fun c hc => hhex c (List.mem_cons_of_mem _ hc))
      (fun c hc => hheld c (List.mem_cons_of_mem _ hc))
      (fun c hc => hmem c (List.mem_cons_of_mem _ hc)) hallWith
    have hkept : (fun npub => countedWith renewed addresses b npub
          ∪ keptAddresses renewed bonds npub)
        = fun npub => addresses npub ∪ keptAddresses renewed (b :: bonds) npub := by
      funext npub
      by_cases hc : b.npub = npub ∧ isRenewed renewed npub b.toCapacityBond = false
      · simp [countedWith, keptAddresses, hc, Finset.insert_union, Finset.union_insert]
      · simp [countedWith, keptAddresses, hc]
    rw [← hkept, List.map_cons, List.zipIdx_cons, List.foldl_cons]
    exact hrest

variable {bonds : List VerifiedBond}

theorem capacities_get (hbound : 1000 * ∑ d ∈ all, held d ≤ JsNumber.maxExact)
    (hhex : ∀ b ∈ bonds, isLowerHex 64 b.npub = true)
    (hheld : ∀ b ∈ bonds, b.actualSats = held b.address) (hall : ∀ b ∈ bonds, b.address ∈ all)
    (npub : String) :
    (arbiterBondCapacities (bonds.map VerifiedBond.toCapacityBond) tenureGatedCapacity).get npub
      = capacityOf held
          (keptAddresses (renewedKeys (bonds.map VerifiedBond.toCapacityBond)) bonds npub) := by
  have hempty : Counts held (fun _ => ∅) ⟨.empty, []⟩ := by
    refine ⟨fun _ _ _ => by simp, fun npub => ?_⟩
    rw [OrderedMap.get_empty, capacityOf, if_pos rfl]
  have h := Counts.foldl hbound (renewedKeys (bonds.map VerifiedBond.toCapacityBond)) bonds 0 hempty
    hhex hheld hall (fun _ => Finset.empty_subset _)
  rw [arbiterBondCapacities, tenureGatedCapacity, h.out npub, Finset.empty_union]

/-! ### Renewals -/

def VerifiedBond.hops (b : VerifiedBond) : List BondLineageHop :=
  (b.lineage.map BondLineage.hops).getD []

/-- Whether a bond of the same arbiter names `b` as its ancestor. -/
def Renews (successor b : VerifiedBond) : Prop :=
  successor.npub = b.npub ∧ ∃ hop ∈ successor.hops, hop.fromTxid ≠ "" ∧
    ∃ txid ∈ b.fundingTxid, txid ≠ "" ∧ toLowerCase hop.fromTxid = toLowerCase txid

instance (successor b : VerifiedBond) : Decidable (Renews successor b) :=
  inferInstanceAs (Decidable (_ ∧ _))

def unrenewed (bonds : List VerifiedBond) (npub : String) : Finset String :=
  ((bonds.filter fun b => b.npub = npub ∧ ∀ successor ∈ bonds, ¬ Renews successor b).map
    VerifiedBond.address).toFinset

theorem mem_unrenewed {npub address : String} :
    address ∈ unrenewed bonds npub ↔ ∃ b ∈ bonds, b.npub = npub ∧ b.address = address ∧
      ∀ successor ∈ bonds, ¬ Renews successor b := by
  simp only [unrenewed, List.mem_toFinset, List.mem_map, List.mem_filter, decide_eq_true_eq]
  tauto

theorem isRenewed_iff (hhex : ∀ b ∈ bonds, isLowerHex 64 b.npub = true) (hb : b ∈ bonds) :
    isRenewed (renewedKeys (bonds.map VerifiedBond.toCapacityBond)) b.npub b.toCapacityBond = true
      ↔ ∃ successor ∈ bonds, Renews successor b := by
  have hkeys (txid : String) :
      b.npub ++ "|" ++ toLowerCase txid ∈ renewedKeys (bonds.map VerifiedBond.toCapacityBond)
        ↔ ∃ successor ∈ bonds, successor.npub = b.npub ∧ ∃ hop ∈ successor.hops,
          hop.fromTxid ≠ "" ∧ toLowerCase hop.fromTxid = toLowerCase txid := by
    simp only [renewedKeys, List.mem_flatMap, List.mem_map, exists_exists_and_eq_and]
    refine exists_congr fun s => and_congr_right fun hs => ?_
    have hpk : normPk s.toCapacityBond.npub = some s.npub := normHex_self (hhex s hs)
    simp only [hpk, List.mem_map, List.mem_filter, decide_eq_true_eq]
    constructor
    · rintro ⟨hop, ⟨hhop, hne⟩, heq⟩
      obtain ⟨hnpub, htxid⟩ := (bondKey_inj (hhex s hs) (hhex b hb)).mp heq
      exact ⟨hnpub, hop, hhop, hne, htxid⟩
    · rintro ⟨hnpub, hop, hhop, hne, htxid⟩
      exact ⟨hop, ⟨hhop, hne⟩, (bondKey_inj (hhex s hs) (hhex b hb)).mpr ⟨hnpub, htxid⟩⟩
  have hfunding : b.toCapacityBond.fundingTxid = b.fundingTxid := rfl
  simp only [isRenewed, hfunding, Option.any_eq_true, Bool.and_eq_true, decide_eq_true_eq,
    List.contains_iff_mem, hkeys, Renews]
  constructor
  · rintro ⟨txid, htxid, hne, s, hs, hnpub, hop, hhop, hhopne, heq⟩
    exact ⟨s, hs, hnpub, hop, hhop, hhopne, txid, htxid, hne, heq⟩
  · rintro ⟨s, hs, hnpub, hop, hhop, hhopne, txid, htxid, hne, heq⟩
    exact ⟨txid, htxid, hne, s, hs, hnpub, hop, hhop, hhopne, heq⟩

theorem keptAddresses_eq (hhex : ∀ b ∈ bonds, isLowerHex 64 b.npub = true) (npub : String) :
    keptAddresses (renewedKeys (bonds.map VerifiedBond.toCapacityBond)) bonds npub
      = unrenewed bonds npub := by
  ext address
  simp only [mem_unrenewed, keptAddresses, List.mem_toFinset, List.mem_map, List.mem_filter,
    decide_eq_true_eq]
  constructor
  · rintro ⟨b, ⟨hb, rfl, hkept⟩, rfl⟩
    refine ⟨b, hb, rfl, rfl, fun s hs hrenews => ?_⟩
    rw [(isRenewed_iff hhex hb).mpr ⟨s, hs, hrenews⟩] at hkept
    cases hkept
  · rintro ⟨b, hb, rfl, rfl, hnone⟩
    refine ⟨b, ⟨hb, rfl, Bool.eq_false_iff.mpr fun hkept => ?_⟩, rfl⟩
    obtain ⟨s, hs, hrenews⟩ := (isRenewed_iff hhex hb).mp hkept
    exact hnone s hs hrenews

/-! ### Licensing a deposit once -/

section Licensing

variable (commitmentAddress : CommitmentAddress) (network : BitcoinNetwork)

def bondAddresses (parsed : List ParsedBondAnnouncement) : Finset String :=
  (parsed.filterMap (bondAddress commitmentAddress network)).toFinset

def heldSats (view : ChainView) (parsed : List ParsedBondAnnouncement) : ℕ :=
  ∑ address ∈ bondAddresses commitmentAddress network parsed, view.sats address

structure LicensedOnce (parsed : List ParsedBondAnnouncement) (view : ChainView) : Prop where
  /-- The capacities sum to at most a thousand times the sats held. -/
  bounded : ∀ caps, announcedCapacities commitmentAddress network view parsed = .ok caps →
    ∃ msats : List ℕ, caps.values = msats.map (fun n : ℕ => JsNumber.fin n) ∧
      msats.sum ≤ 1000 * heldSats commitmentAddress network view parsed
  /-- The order and the duplication of the announcements change no capacity. -/
  unordered : ∀ other : List ParsedBondAnnouncement, (∀ a, a ∈ other ↔ a ∈ parsed) → ∀ npub,
    (announcedCapacities commitmentAddress network view other).toOption.map (·.get npub)
      = (announcedCapacities commitmentAddress network view parsed).toOption.map (·.get npub)
  /-- A renewed bond is not counted beside its successor. -/
  renewals : ∀ bonds caps, verifyAnnouncements commitmentAddress network view parsed = .ok bonds →
    announcedCapacities commitmentAddress network view parsed = .ok caps →
    ∀ npub, caps.get npub = capacityOf view.sats (unrenewed (licensingBonds bonds) npub)

def AllBuild (parsed : List ParsedBondAnnouncement) : Prop :=
  ∀ a ∈ parsed, a.network = network →
    ∃ address, commitmentAddress a.ownerXonly a.lockUntil network = .ok address

def NoneShared (parsed : List ParsedBondAnnouncement) : Prop :=
  AllBuild commitmentAddress network parsed → ∀ a ∈ parsed, ∀ b ∈ parsed, ∀ address,
    bondAddress commitmentAddress network a = some address →
    bondAddress commitmentAddress network b = some address →
    declaresArbiterRole a.roles = true → declaresArbiterRole b.roles = true → a.npub = b.npub

variable {commitmentAddress network} {parsed : List ParsedBondAnnouncement} {view : ChainView}
  {bonds : List VerifiedBond}

theorem mem_bondAddresses {address : String} :
    address ∈ bondAddresses commitmentAddress network parsed
      ↔ ∃ a ∈ parsed, bondAddress commitmentAddress network a = some address := by
  simp [bondAddresses]

theorem mem_licensing (h : verifyAnnouncements commitmentAddress network view parsed = .ok bonds) :
    b ∈ licensingBonds bonds ↔ ∃ a ∈ parsed, ∃ address,
      bondAddress commitmentAddress network a = some address ∧ b = view.verified a address ∧
      0 < view.sats address ∧ (view.tipHeight.all fun tip => tip < a.lockUntil) = true ∧
      declaresArbiterRole a.roles = true := by
  rw [verifyAnnouncements_eq_ok h]
  simp only [licensingBonds, List.mem_filter, List.mem_filterMap, Option.map_eq_some_iff,
    Bool.and_eq_true]
  constructor
  · rintro ⟨⟨a, ha, address, haddress, rfl⟩, ⟨hfunded, hactive⟩, hroles⟩
    exact ⟨a, ha, address, haddress, rfl, of_decide_eq_true hfunded, hactive, hroles⟩
  · rintro ⟨a, ha, address, haddress, rfl, hfunded, hactive, hroles⟩
    exact ⟨⟨a, ha, address, haddress, rfl⟩, ⟨decide_eq_true hfunded, hactive⟩, hroles⟩

theorem announced_get (hbound : 1000 * heldSats commitmentAddress network view parsed
      ≤ JsNumber.maxExact)
    (h : verifyAnnouncements commitmentAddress network view parsed = .ok bonds) (npub : String) :
    (arbiterBondCapacities ((licensingBonds bonds).map VerifiedBond.toCapacityBond)
      tenureGatedCapacity).get npub
      = capacityOf view.sats (unrenewed (licensingBonds bonds) npub) := by
  have hhex : ∀ b ∈ licensingBonds bonds, isLowerHex 64 b.npub = true := by
    intro b hb
    obtain ⟨a, -, address, -, rfl, -⟩ := (mem_licensing h).mp hb
    exact a.npub_hex
  rw [capacities_get hbound hhex, keptAddresses_eq hhex]
  · intro b hb
    obtain ⟨a, -, address, -, rfl, -⟩ := (mem_licensing h).mp hb
    rfl
  · intro b hb
    obtain ⟨a, ha, address, haddress, rfl, -⟩ := (mem_licensing h).mp hb
    exact mem_bondAddresses.mpr ⟨a, ha, haddress⟩

variable {m : OrderedMap String JsNumber}

theorem values_of_get {held : String → ℕ}
    (h : ∀ npub, m.get npub = capacityOf held (addresses npub))
    {all : Finset String} (hall : ∀ npub, addresses npub ⊆ all)
    (hbound : 1000 * ∑ d ∈ all, held d ≤ JsNumber.maxExact) :
    m.values = (m.keys.map fun npub => 1000 * ∑ d ∈ addresses npub, held d).map
      fun n : ℕ => JsNumber.fin n := by
  rw [OrderedMap.values, OrderedMap.keys, List.map_map, List.map_map]
  refine List.map_congr_left fun e he => ?_
  have hget := (m.get_eq_some_iff e.1 e.2).mpr he
  have hle : 1000 * ∑ d ∈ addresses e.1, held d ≤ JsNumber.maxExact :=
    le_trans (Nat.mul_le_mul_left _ (Finset.sum_le_sum_of_subset (hall e.1))) hbound
  rw [h, capacityOf, Option.ite_none_left_eq_some, Option.some.injEq] at hget
  rw [← hget.2, JsNumber.ofInt_natCast hle]
  rfl

theorem mem_keys_of_get {held : String → ℕ}
    (h : ∀ npub, m.get npub = capacityOf held (addresses npub))
    {npub d : String} (hd : d ∈ addresses npub) : npub ∈ m.keys := by
  have hget := h npub
  rw [capacityOf, if_neg (Finset.ne_empty_of_mem hd)] at hget
  exact List.mem_map_of_mem ((m.get_eq_some_iff ..).mp hget)

theorem sum_le_of_disjoint {keys : List String} (hkeys : keys.Nodup) {held : String → ℕ}
    {all : Finset String} (hall : ∀ npub, addresses npub ⊆ all)
    (hdisjoint : ∀ npub npub' d, d ∈ addresses npub → d ∈ addresses npub' → npub = npub') :
    (keys.map fun npub => 1000 * ∑ d ∈ addresses npub, held d).sum ≤ 1000 * ∑ d ∈ all, held d := by
  have hpairwise : (keys.toFinset : Set String).PairwiseDisjoint addresses := by
    intro npub _ npub' _ hne
    refine Finset.disjoint_left.mpr fun d hd hd' => hne (hdisjoint npub npub' d hd hd')
  rw [← List.sum_toFinset _ hkeys, ← Finset.mul_sum, ← Finset.sum_biUnion hpairwise]
  refine Nat.mul_le_mul_left _ (Finset.sum_le_sum_of_subset fun d hd => ?_)
  obtain ⟨npub, -, hnpub⟩ := Finset.mem_biUnion.mp hd
  exact hall npub hnpub

theorem two_le_sum {keys : List String} (hkeys : keys.Nodup) {held : String → ℕ}
    {npub npub' d : String} (hne : npub ≠ npub')
    (hmem : npub ∈ keys) (hmem' : npub' ∈ keys) (hd : d ∈ addresses npub)
    (hd' : d ∈ addresses npub') :
    1000 * (held d + held d) ≤ (keys.map fun npub => 1000 * ∑ d ∈ addresses npub, held d).sum := by
  have hsubset : {npub, npub'} ⊆ keys.toFinset := by
    intro k hk
    rcases Finset.mem_insert.mp hk with rfl | hk
    · exact List.mem_toFinset.mpr hmem
    · rw [Finset.mem_singleton.mp hk]
      exact List.mem_toFinset.mpr hmem'
  have hsingle {k : String} (hk : d ∈ addresses k) : held d ≤ ∑ e ∈ addresses k, held e :=
    Finset.single_le_sum (fun _ _ => Nat.zero_le _) hk
  rw [← List.sum_toFinset _ hkeys, ← Finset.mul_sum]
  refine Nat.mul_le_mul_left _ (le_trans ?_ (Finset.sum_le_sum_of_subset hsubset))
  rw [Finset.sum_pair hne]
  exact Nat.add_le_add (hsingle hd) (hsingle hd')

theorem announcedCapacities_eq_ok {caps : OrderedMap String JsNumber}
    (h : announcedCapacities commitmentAddress network view parsed = .ok caps) :
    ∃ bonds, verifyAnnouncements commitmentAddress network view parsed = .ok bonds ∧
      caps = arbiterBondCapacities ((licensingBonds bonds).map VerifiedBond.toCapacityBond)
        tenureGatedCapacity := by
  simp only [announcedCapacities, bind_eq_ok, pure_eq_ok] at h
  obtain ⟨bonds, hbonds, rfl⟩ := h
  exact ⟨bonds, hbonds, rfl⟩

theorem unrenewed_subset (h : verifyAnnouncements commitmentAddress network view parsed = .ok bonds)
    (npub : String) :
    unrenewed (licensingBonds bonds) npub ⊆ bondAddresses commitmentAddress network parsed := by
  intro d hd
  obtain ⟨b, hb, -, rfl, -⟩ := mem_unrenewed.mp hd
  obtain ⟨a, ha, address, haddress, rfl, -⟩ := (mem_licensing h).mp hb
  exact mem_bondAddresses.mpr ⟨a, ha, haddress⟩

theorem capacities_unordered (hbound : 1000 * heldSats commitmentAddress network view parsed
      ≤ JsNumber.maxExact)
    {other : List ParsedBondAnnouncement} (hother : ∀ a, a ∈ other ↔ a ∈ parsed) (npub : String) :
    (announcedCapacities commitmentAddress network view other).toOption.map (·.get npub)
      = (announcedCapacities commitmentAddress network view parsed).toOption.map (·.get npub) := by
  have hok : (∃ bonds, verifyAnnouncements commitmentAddress network view other = .ok bonds)
      ↔ ∃ bonds, verifyAnnouncements commitmentAddress network view parsed = .ok bonds := by
    simp only [verifyAnnouncements_isOk, hother]
  have haddresses : bondAddresses commitmentAddress network other
      = bondAddresses commitmentAddress network parsed := by
    ext address
    simp only [mem_bondAddresses, hother]
  cases hparsed : verifyAnnouncements commitmentAddress network view parsed with
  | error e =>
    cases hothers : verifyAnnouncements commitmentAddress network view other with
    | error e' =>
      simp only [announcedCapacities, hparsed, hothers]
      rfl
    | ok bonds =>
      obtain ⟨bonds', hbonds'⟩ := hok.mp ⟨bonds, hothers⟩
      rw [hparsed] at hbonds'
      cases hbonds'
  | ok bonds =>
    obtain ⟨bonds', hothers⟩ := hok.mpr ⟨bonds, hparsed⟩
    have hbound' : 1000 * heldSats commitmentAddress network view other ≤ JsNumber.maxExact := by
      rwa [heldSats, haddresses]
    have hmem (b : VerifiedBond) : b ∈ licensingBonds bonds' ↔ b ∈ licensingBonds bonds := by
      simp only [mem_licensing hothers, mem_licensing hparsed, hother]
    have hsame : unrenewed (licensingBonds bonds') npub = unrenewed (licensingBonds bonds) npub := by
      ext address
      simp only [mem_unrenewed, hmem]
    simp only [announcedCapacities, hparsed, hothers]
    change some ((arbiterBondCapacities _ _).get npub) = some ((arbiterBondCapacities _ _).get npub)
    rw [announced_get hbound hparsed, announced_get hbound' hothers, hsame]

theorem exists_fresh_txid (parsed : List ParsedBondAnnouncement) :
    ∃ txid : String, ∀ a ∈ parsed, ∀ lineage ∈ a.lineage, ∀ hop ∈ lineage.hops,
      toLowerCase hop.fromTxid ≠ toLowerCase txid := by
  let named := parsed.flatMap fun a => (a.lineage.map BondLineage.hops).getD []
  let lengths := named.map fun hop => hop.fromTxid.toList.length
  refine ⟨String.ofList (List.replicate (lengths.sum + 1) '0'), ?_⟩
  intro a ha lineage hlineage hop hhop heq
  have hnamed : hop ∈ named := by
    refine List.mem_flatMap.mpr ⟨a, ha, ?_⟩
    rw [hlineage]
    exact hhop
  have hle : hop.fromTxid.toList.length ≤ lengths.sum :=
    List.le_sum_of_mem (List.mem_map_of_mem hnamed)
  have hlength := congrArg (fun s => s.toList.length) heq
  simp only [toLowerCase, String.toList_ofList, List.length_map, List.length_replicate] at hlength
  omega

def oneSatAt (address txid : String) : ChainView where
  deposits d := if d = address then [⟨txid, 1, none⟩] else []
  tipHeight := none

theorem oneSatAt_sats (address txid d : String) :
    (oneSatAt address txid).sats d = if d = address then 1 else 0 := by
  unfold ChainView.sats oneSatAt
  dsimp only
  split_ifs <;> rfl

variable {address txid : String}

theorem heldSats_oneSatAt (h : address ∈ bondAddresses commitmentAddress network parsed) :
    heldSats commitmentAddress network (oneSatAt address txid) parsed = 1 := by
  simp only [heldSats, oneSatAt_sats, Finset.sum_ite_eq', if_pos h]

theorem mem_unrenewed_oneSatAt (hfresh : ∀ a ∈ parsed, ∀ lineage ∈ a.lineage, ∀ hop ∈ lineage.hops,
      toLowerCase hop.fromTxid ≠ toLowerCase txid)
    (h : verifyAnnouncements commitmentAddress network (oneSatAt address txid) parsed = .ok bonds)
    {a : ParsedBondAnnouncement} (ha : a ∈ parsed)
    (haddress : bondAddress commitmentAddress network a = some address)
    (hrole : declaresArbiterRole a.roles = true) :
    address ∈ unrenewed (licensingBonds bonds) a.npub := by
  have hsats : (oneSatAt address txid).sats address = 1 := by rw [oneSatAt_sats, if_pos rfl]
  refine mem_unrenewed.mpr ⟨(oneSatAt address txid).verified a address, ?_, rfl, rfl, ?_⟩
  · exact (mem_licensing h).mpr ⟨a, ha, address, haddress, rfl, by omega, rfl, hrole⟩
  · rintro successor hsuccessor ⟨-, hop, hhop, -, funding, hfunding, -, heq⟩
    obtain ⟨s, hs, d, -, rfl, -⟩ := (mem_licensing h).mp hsuccessor
    have htxid : funding = txid := by
      have hdeposits : (oneSatAt address txid).fundingTxid address = some txid := by
        simp only [ChainView.fundingTxid, oneSatAt, if_pos, List.find?_cons, List.find?_nil]
        split <;> rfl
      exact Option.some.inj (hfunding.symm.trans hdeposits)
    cases hlineage : s.lineage with
    | none => simp [VerifiedBond.hops, ChainView.verified, hlineage] at hhop
    | some lineage =>
      simp only [VerifiedBond.hops, ChainView.verified, hlineage, Option.map_some,
        Option.getD_some] at hhop
      exact hfresh s hs lineage hlineage hop hhop (htxid ▸ heq)

theorem not_licensed_of_shared (hbuild : AllBuild commitmentAddress network parsed)
    (hfresh : ∀ a ∈ parsed, ∀ lineage ∈ a.lineage, ∀ hop ∈ lineage.hops,
      toLowerCase hop.fromTxid ≠ toLowerCase txid)
    {a b : ParsedBondAnnouncement} (ha : a ∈ parsed) (hb : b ∈ parsed)
    (haddress : bondAddress commitmentAddress network a = some address)
    (haddress' : bondAddress commitmentAddress network b = some address)
    (hrole : declaresArbiterRole a.roles = true) (hrole' : declaresArbiterRole b.roles = true)
    (hne : a.npub ≠ b.npub) :
    1000 * heldSats commitmentAddress network (oneSatAt address txid) parsed ≤ JsNumber.maxExact ∧
      ¬ LicensedOnce commitmentAddress network parsed (oneSatAt address txid) := by
  have hheld : heldSats commitmentAddress network (oneSatAt address txid) parsed = 1 :=
    heldSats_oneSatAt (mem_bondAddresses.mpr ⟨a, ha, haddress⟩)
  have hbound : 1000 * heldSats commitmentAddress network (oneSatAt address txid) parsed
      ≤ JsNumber.maxExact := by
    rw [hheld]
    decide
  refine ⟨hbound, fun h => ?_⟩
  obtain ⟨bonds, hbonds⟩ : ∃ bonds, verifyAnnouncements commitmentAddress network
      (oneSatAt address txid) parsed = .ok bonds := verifyAnnouncements_isOk.mpr hbuild
  have hcaps : announcedCapacities commitmentAddress network (oneSatAt address txid) parsed
      = .ok (arbiterBondCapacities ((licensingBonds bonds).map VerifiedBond.toCapacityBond)
          tenureGatedCapacity) := by
    simp only [announcedCapacities, hbonds]
    rfl
  obtain ⟨msats, hvalues, hsum⟩ := h.bounded _ hcaps
  have hget := announced_get hbound hbonds
  have hexact := values_of_get hget (unrenewed_subset hbonds) hbound
  have hinj : Function.Injective fun n : ℕ => JsNumber.fin n := fun m n hmn => by simpa using hmn
  have hmsats := List.map_injective_iff.mpr hinj (hvalues.symm.trans hexact)
  have hdeposit := mem_unrenewed_oneSatAt hfresh hbonds ha haddress hrole
  have hdeposit' := mem_unrenewed_oneSatAt hfresh hbonds hb haddress' hrole'
  have htwice : 1000 * ((oneSatAt address txid).sats address
      + (oneSatAt address txid).sats address) ≤ _ :=
    two_le_sum (OrderedMap.nodup _) hne (mem_keys_of_get hget hdeposit)
      (mem_keys_of_get hget hdeposit') hdeposit hdeposit'
  rw [oneSatAt_sats, if_pos rfl] at htwice
  rw [hmsats, hheld] at hsum
  have := le_trans htwice hsum
  omega

variable (commitmentAddress network parsed) in
/-- A set of announcements licenses each deposit once, whatever the chain holds, just when no two
arbiters announce one address. -/
theorem licensed_once_iff :
    (∀ view : ChainView, 1000 * heldSats commitmentAddress network view parsed ≤ JsNumber.maxExact →
      LicensedOnce commitmentAddress network parsed view)
      ↔ NoneShared commitmentAddress network parsed := by
  constructor
  · intro h hbuild a ha b hb address haddress haddress' hrole hrole'
    obtain ⟨txid, hfresh⟩ := exists_fresh_txid parsed
    by_contra hne
    obtain ⟨hbound, htwice⟩ := not_licensed_of_shared hbuild hfresh ha hb haddress haddress' hrole
      hrole' hne
    exact htwice (h _ hbound)
  · intro h view hbound
    refine ⟨fun caps hcaps => ?_, fun other hother npub => capacities_unordered hbound hother npub,
      fun bonds caps hbonds hcaps npub => ?_⟩
    · obtain ⟨bonds, hbonds, rfl⟩ := announcedCapacities_eq_ok hcaps
      refine ⟨_, values_of_get (announced_get hbound hbonds) (unrenewed_subset hbonds) hbound, ?_⟩
      refine sum_le_of_disjoint (OrderedMap.nodup _) (unrenewed_subset hbonds) ?_
      -- An address licenses two arbiters only if both announce it.
      intro npub npub' d hd hd'
      obtain ⟨b, hb, rfl, rfl, -⟩ := mem_unrenewed.mp hd
      obtain ⟨b', hb', rfl, hsame, -⟩ := mem_unrenewed.mp hd'
      obtain ⟨a, ha, address, haddress, rfl, -, -, hrole⟩ := (mem_licensing hbonds).mp hb
      obtain ⟨a', ha', address', haddress', rfl, -, -, hrole'⟩ := (mem_licensing hbonds).mp hb'
      have haddresses : address' = address := hsame
      rw [haddresses] at haddress'
      exact h (verifyAnnouncements_isOk.mp ⟨bonds, hbonds⟩) a ha a' ha' address haddress haddress'
        hrole hrole'
    · obtain ⟨bonds', hbonds', rfl⟩ := announcedCapacities_eq_ok hcaps
      obtain rfl : bonds' = bonds := Except.ok.inj (hbonds'.symm.trans hbonds)
      exact announced_get hbound hbonds' npub

end Licensing

/-! ### Two arbiters announcing one bond -/

def sampleHex (c : Char) : String := String.ofList (List.replicate 64 c)

theorem sampleHex_injective {c d : Char} (h : sampleHex c = sampleHex d) : c = d := by
  have hhead := congrArg (fun s => s.toList.head?) h
  simpa [sampleHex] using hhead

theorem isLowerHex_sampleHex {c : Char} (h : (c.isDigit || ('a' ≤ c && c ≤ 'f')) = true) :
    isLowerHex 64 (sampleHex c) = true := by
  rw [isLowerHex, sampleHex, String.toList_ofList, List.length_replicate, List.all_replicate, h]
  rfl

def sampleBondAddress : String := "bc1pvgelzdp3n7y6h84azex7wgqc4622kax9y597e88e3s2mdlz8hh7smeypat"

def sampleAnnouncement (author : Char)
    (h : (author.isDigit || ('a' ≤ author && author ≤ 'f')) = true) : ParsedBondAnnouncement where
  npub := sampleHex author
  community := "coop"
  ownerXonly := "79be667ef9dcbbac55a06295ce870b07029bfcdb2dce28d959f2815b16f81798"
  lockUntil := 900000
  claimedSats := 1
  network := .mainnet
  address := sampleBondAddress
  createdAt := 1800000000
  eventId := sampleHex author
  roles := [.arbiter]
  lineage := none
  npub_hex := isLowerHex_sampleHex h

theorem buildCommitmentBond_sample (xonly : String) :
    buildCommitmentBond (fun _ _ _ => .ok sampleBondAddress) xonly 900000 .mainnet
      = .ok sampleBondAddress := by
  rw [buildCommitmentBond, if_neg]
  decide

/-- Two arbiters announce one bond of one sat, and each is licensed for it. -/
theorem shared_bond_licensed_twice :
    ∃ (commitmentAddress : CommitmentAddress) (parsed : List ParsedBondAnnouncement)
      (view : ChainView),
      1000 * heldSats commitmentAddress .mainnet view parsed ≤ JsNumber.maxExact ∧
      ¬ LicensedOnce commitmentAddress .mainnet parsed view := by
  let address : CommitmentAddress := buildCommitmentBond fun _ _ _ => .ok sampleBondAddress
  let a := sampleAnnouncement 'a' (by decide)
  let b := sampleAnnouncement 'b' (by decide)
  have hbond (c : Char) (h) :
      bondAddress address .mainnet (sampleAnnouncement c h) = some sampleBondAddress :=
    bondAddress_eq_some.mpr ⟨rfl, buildCommitmentBond_sample _⟩
  have hall {c : ParsedBondAnnouncement} (hc : c ∈ [a, b]) : ∃ d h, c = sampleAnnouncement d h := by
    rcases List.mem_pair.mp hc with rfl | rfl <;> exact ⟨_, _, rfl⟩
  refine ⟨address, [a, b], oneSatAt sampleBondAddress (sampleHex 'e'),
    not_licensed_of_shared (a := a) (b := b) ?_ ?_ (by simp) (by simp) (hbond _ _) (hbond _ _)
      rfl rfl ?_⟩
  · intro c hc _
    obtain ⟨d, h, rfl⟩ := hall hc
    exact ⟨_, buildCommitmentBond_sample _⟩
  · intro c hc lineage hlineage
    obtain ⟨d, h, rfl⟩ := hall hc
    cases hlineage
  · intro hne
    exact absurd (sampleHex_injective hne) (by decide)

end ChamaEscrow.Bond
