import ChamaEscrow.Bond.Capacity
import ChamaEscrow.Js.Whole

/-!
# The advertised cover

`arbiters/exposure.ts`: which bonded arbiters may be seated on a trade, and the largest on-chain
trade that any of them can still cover, the number that a screen names in advance.

* `assignable_iff_le_cover`: as long as all amounts are exact, some arbiter other than the creator
  may be seated on a trade just when the trade is not above the advertised cover.
* `cover_inexact`: a fraction of a msat, or more than `2 ^ 53` msats, drives the two apart.
-/

namespace ChamaEscrow.Bond

open Js Library

/-! ### Exposure -/

def unbondedFloorMsats : JsNumber := 10000000

def isOpenExposure (state : EscrowState) : Bool :=
  if state.escrowMode = .onchain then state.lock.onchain.isSome
  else state.status = .locked || state.status = .approved || state.status = .claimed

def isExcluded (excludeId : Option String) (trade : EscrowState) : Bool :=
  excludeId.any fun id => id ≠ "" && trade.id = id

def getOpenBondedTrades (npub : String) (allTrades : List EscrowState)
    (excludeId : Option String) : List EscrowState :=
  match normPk npub with
  | none => []
  | some want =>
    allTrades.filter fun trade =>
      !isExcluded excludeId trade && !decide (trade.amountMsats < unbondedFloorMsats) &&
        isOpenExposure trade && trade.participants.arbiter.bind normPk = some want

def sumOpenExposure (openTrades : List EscrowState) : JsNumber :=
  openTrades.foldl (fun sum trade => sum + trade.amountMsats) 0

/-! ### The two verdicts -/

def coversTrade (tradeMsats sumOther bondMsats : JsNumber) : Bool :=
  tradeMsats ≤ bondMsats && sumOther + tradeMsats ≤ bondMsats

def assignableBondedArbiters (bonds : List CapacityBond) (tradeMsats : JsNumber)
    (allTrades : List EscrowState) (excludeTradeId : Option String) (tenureGated : Bool) :
    List String :=
  let subFloor := tradeMsats < unbondedFloorMsats
  ((arbiterBondCapacities bonds tenureGated).entries.filter fun entry =>
    subFloor || coversTrade tradeMsats
      (sumOpenExposure (getOpenBondedTrades entry.1 allTrades excludeTradeId)) entry.2).map
    Prod.fst

def freeSats (allTrades : List EscrowState) (entry : String × JsNumber) : JsNumber :=
  let freeMsats := entry.2 - sumOpenExposure (getOpenBondedTrades entry.1 allTrades none)
  ((JsNumber.max 0 freeMsats).divBy 1000).floor

def largestOnchainCoverSats (bonds : List CapacityBond) (allTrades : List EscrowState)
    (excludePubkey : Option String) (tenureGated : Bool) : JsNumber :=
  let self := excludePubkey.bind normPk
  (arbiterBondCapacities bonds tenureGated).entries.foldl (fun largest entry =>
    if self = some entry.1 then largest else JsNumber.max largest (freeSats allTrades entry)) 0

/-! ### Capacities are whole -/

variable {entry : String × JsNumber}

section Whole

open JsNumber

theorem tenureCapacityMultiplier_pos (tenureDays : Option JsNumber) :
    ∃ q : ℚ, tenureCapacityMultiplier tenureDays = fin q ∧ 0 < q := by
  have hquarter : tenureMinCapacityFraction = fin (1 / 4) := by decide +kernel
  cases tenureDays with
  | none => exact ⟨1 / 4, hquarter, by norm_num⟩
  | some days =>
    unfold tenureCapacityMultiplier
    dsimp only
    split_ifs with hnone hfull
    · exact ⟨1 / 4, hquarter, by norm_num⟩
    · exact ⟨1, one_eq_fin, by norm_num⟩
    · rw [Bool.or_eq_true, not_or] at hnone
      cases days with
      | fin d =>
        have hpos : 0 < d := by
          have hnot : ¬ fin d ≤ fin 0 := by simpa [zero_eq_fin] using hnone.2
          rwa [fin_le_fin, not_le] at hnot
        have hthirty : ofInt tenureFullCapacityDays = fin (30 : ℚ) := by decide +kernel
        have hless : d < 30 := by
          rwa [hthirty, fin_le_fin, not_le] at hfull
        have hramp : fin 0 ≤ (fin d).divBy tenureFullCapacityDays ∧
            (fin d).divBy tenureFullCapacityDays ≤ fin 1 := by
          refine ⟨fin_le_ofRat (by decide +kernel) ?_, ofRat_le_fin (by decide +kernel) ?_⟩
          · positivity
          · show d / (30 : ℕ) ≤ 1
            rw [div_le_one (by norm_num)]
            exact_mod_cast hless.le
        obtain ⟨r, hr, hlow, hhigh⟩ := eq_fin_of_between hramp.1 hramp.2
        have hrest : (1 : JsNumber) - tenureMinCapacityFraction = fin (3 / 4) := by decide +kernel
        have hproduct : fin 0 ≤ fin r * fin (3 / 4) ∧ fin r * fin (3 / 4) ≤ fin (3 / 4) := by
          refine ⟨fin_le_ofRat (by decide +kernel) ?_, ofRat_le_fin (by decide +kernel) ?_⟩
          · positivity
          · linarith
        obtain ⟨p, hp, hplow, hphigh⟩ := eq_fin_of_between hproduct.1 hproduct.2
        have hsum : fin (1 / 4) ≤ fin (1 / 4) + fin p ∧ fin (1 / 4) + fin p ≤ fin 1 := by
          refine ⟨fin_le_ofRat (by decide +kernel) ?_, ofRat_le_fin (by decide +kernel) ?_⟩
          · linarith
          · linarith
        obtain ⟨q, hq, hqlow, -⟩ := eq_fin_of_between hsum.1 hsum.2
        refine ⟨q, ?_, by linarith⟩
        rw [hr, hrest, hquarter, hp, hq]
      | nan => simp [isFinite] at hnone
      | posInf => simp [isFinite] at hnone
      | negInf => simp [isFinite] at hnone

def IsAmount (a : JsNumber) : Prop := IsWhole a ∧ 0 ≤ a

theorem IsAmount.add {a b : JsNumber} (ha : IsAmount a) (hb : IsAmount b) : IsAmount (a + b) :=
  ⟨ha.1.add hb.1, add_nonneg ha.2 hb.2⟩

theorem IsAmount.eq_natCast {a : JsNumber} (ha : IsAmount a) (h : a ≤ fin (maxExact : ℕ)) :
    ∃ n : ℕ, a = fin (n : ℚ) ∧ n ≤ maxExact := by
  have hpos := ha.2
  rw [zero_eq_fin] at hpos
  obtain ⟨q, hq, hlow, hhigh⟩ := eq_fin_of_between hpos h
  obtain ⟨n, rfl⟩ := ha.1 q hq
  have hnpos : 0 ≤ n := by exact_mod_cast hlow
  have hnmost : n ≤ (maxExact : ℕ) := by exact_mod_cast hhigh
  refine ⟨n.toNat, ?_, by omega⟩
  rw [hq, ← Int.cast_natCast, Int.toNat_of_nonneg hnpos]

theorem isAmount_bondMsats (tenureGated : Bool) (b : CapacityBond) :
    IsAmount (bondMsats tenureGated b) := by
  have hsats : (0 : JsNumber) ≤ ofInt b.actualSats := ofInt_mono (m := 0) (by omega)
  have hthousand : (1000 : JsNumber) = fin (1000 : ℤ) := ofInt_eq_fin (by decide)
  have hmsats : (0 : JsNumber) ≤ ofInt b.actualSats * fin (1000 : ℤ) :=
    mul_fin_nonneg (by norm_num) hsats
  unfold bondMsats
  rw [hthousand]
  split_ifs
  · obtain ⟨q, hq, hpos⟩ := tenureCapacityMultiplier_pos b.tenureDays
    refine ⟨isWhole_floor _, ?_⟩
    rw [effectiveBondCapacityMsats, hq]
    exact floor_nonneg (mul_fin_nonneg hpos hmsats)
  · exact ⟨(isWhole_ofInt _).mul_fin (by norm_num), hmsats⟩

def TallyWhole (tally : Tally) : Prop :=
  ∀ npub msats, tally.out.get npub = some msats → IsAmount msats

theorem TallyWhole.countBond {tenureGated : Bool} {renewed : List String} {tally : Tally}
    (h : TallyWhole tally) (entry : CapacityBond × ℕ) :
    TallyWhole (countBond tenureGated renewed tally entry) := by
  unfold Bond.countBond
  split
  · exact h
  · rename_i npub _
    split_ifs
    · exact h
    · exact h
    · intro npub' msats hget
      have hbefore : IsAmount ((tally.out.get npub).getD 0) := by
        cases hbond : tally.out.get npub with
        | none => exact ⟨isWhole_ofInt 0, le_refl (ofInt_ne_nan 0)⟩
        | some before => exact h npub before hbond
      rw [OrderedMap.get_set] at hget
      split_ifs at hget with hsame
      · cases hget
        exact hbefore.add (isAmount_bondMsats tenureGated entry.1)
      · exact h npub' msats hget

theorem isAmount_capacity {bonds : List CapacityBond} {tenureGated : Bool}
    (h : entry ∈ (arbiterBondCapacities bonds tenureGated).entries) : IsAmount entry.2 := by
  have hrun (entries : List (CapacityBond × ℕ)) : ∀ tally, TallyWhole tally →
      TallyWhole (entries.foldl (Bond.countBond tenureGated (renewedKeys bonds)) tally) := by
    induction entries with
    | nil => exact fun tally htally => htally
    | cons e entries ih =>
      intro tally htally
      have hstep : TallyWhole (Bond.countBond tenureGated (renewedKeys bonds) tally e) :=
        htally.countBond e
      rw [List.foldl_cons]
      exact ih (Bond.countBond tenureGated (renewedKeys bonds) tally e) hstep
  have hempty : TallyWhole ⟨.empty, []⟩ := by
    intro npub msats hget
    rw [OrderedMap.get_empty] at hget
    cases hget
  have hwhole := hrun bonds.zipIdx ⟨.empty, []⟩ hempty
  rw [arbiterBondCapacities] at h
  exact hwhole entry.1 entry.2 ((OrderedMap.get_eq_some_iff _ _ _).mpr h)

end Whole

/-! ### Exact books -/

section Exact

open JsNumber

variable {bonds : List CapacityBond} {tenureGated : Bool} {trades : List EscrowState}

theorem thousand_eq_intCast : (1000 : JsNumber) = fin (1000 : ℤ) := ofInt_eq_fin (by decide)

/-- Nothing that counts is rounded: the capacities are safe integers, and the trades that are open
are whole msats. -/
structure ExactBook (bonds : List CapacityBond) (tenureGated : Bool)
    (trades : List EscrowState) : Prop where
  capacity : ∀ entry ∈ (arbiterBondCapacities bonds tenureGated).entries, entry.2 ≤ maxSafeInteger
  whole : ∀ entry ∈ (arbiterBondCapacities bonds tenureGated).entries,
    ∀ trade ∈ getOpenBondedTrades entry.1 trades none, trade.amountMsats.toNat?.isSome = true

/-- A sum of whole amounts is exact, or above every safe integer. -/
def IsExposure (sum : JsNumber) : Prop :=
  (∃ S : ℕ, sum = fin (S : ℚ) ∧ S ≤ maxExact) ∨ fin (maxExact : ℕ) ≤ sum

theorem IsExposure.add {sum : JsNumber} (h : IsExposure sum) (n : ℕ) :
    IsExposure (sum + fin (n : ℚ)) := by
  rcases h with ⟨S, rfl, hS⟩ | habove
  · rcases Nat.lt_or_ge maxExact (S + n) with hover | hexact
    · right
      refine fin_le_ofRat (isDouble_natCast (Nat.le_refl _)) ?_
      exact_mod_cast hover.le
    · left
      refine ⟨S + n, ?_, hexact⟩
      rw [fin_add_fin, ← Nat.cast_add]
      exact ofInt_natCast hexact
  · right
    rw [← Int.cast_natCast (R := ℚ) n]
    exact le_add_of_nonneg (by omega) habove

theorem isExposure_sum {openTrades : List EscrowState}
    (hwhole : ∀ trade ∈ openTrades, trade.amountMsats.toNat?.isSome = true) :
    IsExposure (sumOpenExposure openTrades) := by
  have hrun : ∀ start : JsNumber, IsExposure start →
      IsExposure (openTrades.foldl (fun sum trade => sum + trade.amountMsats) start) := by
    induction openTrades with
    | nil => exact fun start hstart => hstart
    | cons trade rest ih =>
      intro start hstart
      obtain ⟨n, hn⟩ := Option.isSome_iff_exists.mp (hwhole trade List.mem_cons_self)
      rw [List.foldl_cons, toNat?_eq_some hn]
      exact ih (fun t ht => hwhole t (List.mem_cons_of_mem _ ht)) _ (hstart.add n)
  exact hrun 0 (Or.inl ⟨0, zero_eq_fin, Nat.zero_le _⟩)

theorem freeSats_eq {B S : ℕ} (hB : entry.2 = fin (B : ℚ)) (hBmost : B ≤ maxExact)
    (hS : sumOpenExposure (getOpenBondedTrades entry.1 trades none) = fin (S : ℚ))
    (hSmost : S ≤ maxExact) : freeSats trades entry = fin (((B - S) / 1000 : ℕ) : ℚ) := by
  have hfree : JsNumber.max 0 (fin (B : ℚ) - fin (S : ℚ)) = fin ((B - S : ℕ) : ℚ) := by
    have hsub := sub_intCast (x := B) (y := S) (by omega)
    rw [Int.cast_natCast, Int.cast_natCast] at hsub
    rw [hsub, zero_eq_fin]
    rcases Nat.le_total S B with hle | hle
    · rw [max_eq_right (fin_le_fin.mpr (by exact_mod_cast (by omega : (0 : ℤ) ≤ B - S))),
        Nat.cast_sub hle]
      push_cast
      rfl
    · rw [max_eq_left (fin_le_fin.mpr (by exact_mod_cast (by omega : (B : ℤ) - S ≤ 0))),
        Nat.sub_eq_zero_of_le hle, Nat.cast_zero]
  rw [freeSats, hB, hS, hfree]
  exact floor_thousandth (by omega)

theorem maxSafeInteger_eq : maxSafeInteger = fin ((maxExact - 1 : ℕ) : ℚ) :=
  ofInt_natCast (n := maxExact - 1) (Nat.sub_le _ _)

theorem freeSats_overdrawn {B : ℕ} (hB : entry.2 = fin (B : ℚ)) (hBmost : B < maxExact)
    (habove : fin (maxExact : ℕ) ≤ sumOpenExposure (getOpenBondedTrades entry.1 trades none)) :
    freeSats trades entry = 0 := by
  have hnegative : fin (B : ℚ) - sumOpenExposure (getOpenBondedTrades entry.1 trades none) ≤ 0 := by
    cases hsum : sumOpenExposure (getOpenBondedTrades entry.1 trades none) with
    | fin q =>
      rw [hsum, fin_le_fin] at habove
      rw [zero_eq_fin]
      refine ofRat_le_fin (by simpa using isDouble_natCast (Nat.zero_le maxExact)) ?_
      have hless : (B : ℚ) < (maxExact : ℕ) := by exact_mod_cast hBmost
      linarith
    | nan =>
      rw [hsum] at habove
      cases habove
    | posInf => rfl
    | negInf =>
      rw [hsum] at habove
      cases habove
  have hnothing := floor_thousandth (Nat.zero_le maxExact)
  rw [freeSats, hB, max_eq_left hnegative]
  simpa [zero_eq_fin] using hnothing

theorem covers_iff (hbook : ExactBook bonds tenureGated trades)
    (hentry : entry ∈ (arbiterBondCapacities bonds tenureGated).entries) {n : ℕ} (hn : 0 < n) :
    coversTrade (ofInt n * 1000) (sumOpenExposure (getOpenBondedTrades entry.1 trades none))
        entry.2 = true ↔
      ofInt n ≤ freeSats trades entry := by
  have hsafe : maxSafeInteger ≤ fin (maxExact : ℕ) :=
    maxSafeInteger_eq ▸ fin_le_fin.mpr (by exact_mod_cast Nat.sub_le _ _)
  obtain ⟨B, hB, hBmost⟩ :=
    (isAmount_capacity hentry).eq_natCast (le_trans (hbook.capacity entry hentry) hsafe)
  have hBless : B < maxExact := by
    have hle := hbook.capacity entry hentry
    rw [hB, maxSafeInteger_eq, fin_le_fin, Nat.cast_le] at hle
    unfold maxExact at hle ⊢
    omega
  have hmsats : (0 : JsNumber) ≤ ofInt n * 1000 := by
    rw [thousand_eq_intCast]
    exact mul_fin_nonneg (by norm_num) (ofInt_mono (m := 0) (by omega))
  have htoo {a : JsNumber} (h : fin ((B + 1 : ℕ) : ℚ) ≤ a) : ¬ a ≤ entry.2 := by
    intro hle
    rw [hB] at hle
    have := le_trans h hle
    rw [fin_le_fin, Nat.cast_le] at this
    omega
  rw [coversTrade, Bool.and_eq_true, decide_eq_true_eq, decide_eq_true_eq]
  rcases isExposure_sum (hbook.whole entry hentry) with ⟨S, hS, hSmost⟩ | habove
  · rw [freeSats_eq hB hBmost hS hSmost]
    -- in natural numbers
    have hfree : ofInt n ≤ fin (((B - S) / 1000 : ℕ) : ℚ) ↔ S + 1000 * n ≤ B := by
      rcases Nat.lt_or_ge maxExact n with hover | hexact
      · constructor
        · intro h
          have hbig : fin (maxExact : ℕ) ≤ ofInt n := by
            rw [← ofInt_natCast (Nat.le_refl _)]
            exact ofInt_mono (by omega)
          have := le_trans hbig h
          rw [fin_le_fin, Nat.cast_le] at this
          omega
        · intro h
          omega
      · rw [ofInt_natCast hexact, fin_le_fin, Nat.cast_le]
        omega
    rw [hfree]
    rcases Nat.lt_or_ge B (1000 * n) with hover | hfits
    · constructor
      · rintro ⟨htrade, -⟩
        refine absurd htrade (htoo ?_)
        -- a product above the bond stays above it
        have hnext : B / 1000 + 1 ≤ maxExact := by omega
        have hproduct : fin ((B + 1 : ℕ) : ℚ) ≤ ofInt (B / 1000 + 1 : ℕ) * 1000 := by
          rw [ofInt_natCast hnext, thousand_eq_intCast]
          refine fin_le_ofRat (isDouble_natCast hBless) ?_
          have hle : B + 1 ≤ (B / 1000 + 1) * 1000 := by omega
          have hcast : ((B + 1 : ℕ) : ℚ) ≤ ((B / 1000 + 1 : ℕ) * 1000 : ℕ) := by exact_mod_cast hle
          push_cast at hcast ⊢
          exact hcast
        refine le_trans hproduct ?_
        rw [thousand_eq_intCast]
        exact mul_fin_mono (by norm_num) (ofInt_mono (by omega))
      · intro h
        omega
    · rw [ofInt_mul_thousand (by omega), ofInt_natCast (by omega), hS, hB, fin_le_fin, Nat.cast_le]
      constructor
      · rintro ⟨-, hsum⟩
        by_contra hover
        refine absurd hsum ?_
        rw [← hB]
        refine htoo (fin_le_ofRat (isDouble_natCast hBless) ?_)
        exact_mod_cast (by omega : B + 1 ≤ S + 1000 * n)
      · intro h
        refine ⟨hfits, ofRat_le_fin (isDouble_natCast hBmost) ?_⟩
        exact_mod_cast h
  · rw [freeSats_overdrawn hB hBless habove]
    constructor
    · rintro ⟨-, hsum⟩
      have hpos : (0 : JsNumber) ≤ fin (maxExact : ℕ) := by
        rw [zero_eq_fin]
        exact fin_le_fin.mpr (Nat.cast_nonneg _)
      have hzero : fin (maxExact : ℕ) ≤ fin (maxExact : ℕ) + (0 : JsNumber) := by
        rw [zero_eq_fin]
        exact_mod_cast le_add_of_nonneg (le_refl 0) (fin_le_fin.mpr (le_refl _))
      have hmore : fin (maxExact : ℕ) ≤
          sumOpenExposure (getOpenBondedTrades entry.1 trades none) + ofInt n * 1000 := by
        exact le_trans hzero (add_mono habove hmsats hpos (le_refl (ofInt_ne_nan 0)))
      have hfirst : fin ((B + 1 : ℕ) : ℚ) ≤ fin (maxExact : ℕ) :=
        fin_le_fin.mpr (by exact_mod_cast hBless)
      exact absurd hsum (htoo (le_trans hfirst hmore))
    · exact fun h => absurd h (not_ofInt_le_zero (by omega))

theorem le_max_iff {a b c : JsNumber} (hb : b ≠ nan) (hc : c ≠ nan) :
    a ≤ JsNumber.max b c ↔ a ≤ b ∨ a ≤ c := by
  rcases le_total_of_ne_nan hb hc with h | h
  · rw [max_eq_right h]
    exact ⟨Or.inr, fun hor => hor.elim (fun hab => le_trans hab h) id⟩
  · rw [max_eq_left h]
    exact ⟨Or.inl, fun hor => hor.elim id (fun hac => le_trans hac h)⟩

theorem freeSats_ne_nan (hbook : ExactBook bonds tenureGated trades)
    (hentry : entry ∈ (arbiterBondCapacities bonds tenureGated).entries) :
    freeSats trades entry ≠ nan := by
  have hsafe : maxSafeInteger ≤ fin (maxExact : ℕ) :=
    maxSafeInteger_eq ▸ fin_le_fin.mpr (by exact_mod_cast Nat.sub_le _ _)
  obtain ⟨B, hB, hBmost⟩ :=
    (isAmount_capacity hentry).eq_natCast (le_trans (hbook.capacity entry hentry) hsafe)
  have hdiff : entry.2 - sumOpenExposure (getOpenBondedTrades entry.1 trades none) ≠ nan := by
    rw [hB]
    rcases isExposure_sum (hbook.whole entry hentry) with ⟨S, hS, -⟩ | habove
    · rw [hS]
      exact ofRat_ne_nan _
    · cases hsum : sumOpenExposure (getOpenBondedTrades entry.1 trades none) with
      | fin q => exact ofRat_ne_nan _
      | nan =>
        rw [hsum] at habove
        cases habove
      | posInf => exact (by decide : negInf ≠ nan)
      | negInf => exact (by decide : posInf ≠ nan)
  have hmax := le_max_left (ofInt_ne_nan 0) hdiff
  exact (ne_nan_of_le (floor_mono (divBy_mono (d := 1000) hmax))).2

theorem le_cover_iff (hbook : ExactBook bonds tenureGated trades) (creator : Option String) {n : ℕ}
    (hn : 0 < n) :
    ofInt n ≤ largestOnchainCoverSats bonds trades creator tenureGated ↔
      ∃ entry ∈ (arbiterBondCapacities bonds tenureGated).entries,
        creator.bind normPk ≠ some entry.1 ∧ ofInt n ≤ freeSats trades entry := by
  have hrun (entries : List (String × JsNumber))
      (hsub : ∀ entry ∈ entries, freeSats trades entry ≠ nan) :
      ∀ start : JsNumber, start ≠ nan →
        (ofInt n ≤ entries.foldl (fun largest entry =>
            if creator.bind normPk = some entry.1 then largest
            else JsNumber.max largest (freeSats trades entry)) start ↔
          ofInt n ≤ start ∨ ∃ entry ∈ entries,
            creator.bind normPk ≠ some entry.1 ∧ ofInt n ≤ freeSats trades entry) := by
    induction entries with
    | nil => exact fun start _ => by simp
    | cons entry rest ih =>
      intro start hstart
      have hrest := ih fun e he => hsub e (List.mem_cons_of_mem _ he)
      have hfree := hsub entry List.mem_cons_self
      rw [List.foldl_cons]
      by_cases hself : creator.bind normPk = some entry.1
      · rw [if_pos hself, hrest start hstart]
        simp [hself]
      · have hmax : JsNumber.max start (freeSats trades entry) ≠ nan :=
          (ne_nan_of_le (le_max_left hstart hfree)).2
        rw [if_neg hself, hrest _ hmax, le_max_iff hstart hfree]
        simp [hself, or_assoc]
  have hzero : ¬ ofInt n ≤ 0 := not_ofInt_le_zero (by omega)
  rw [largestOnchainCoverSats, hrun _ (fun entry hentry => freeSats_ne_nan hbook hentry) 0
    (ofInt_ne_nan 0)]
  exact ⟨fun h => h.resolve_left hzero, Or.inr⟩

theorem mem_assignable {tradeMsats : JsNumber} (hfloor : ¬ tradeMsats < unbondedFloorMsats)
    {npub : String} :
    npub ∈ assignableBondedArbiters bonds tradeMsats trades none tenureGated ↔
      ∃ entry ∈ (arbiterBondCapacities bonds tenureGated).entries, entry.1 = npub ∧
        coversTrade tradeMsats (sumOpenExposure (getOpenBondedTrades entry.1 trades none))
          entry.2 = true := by
  rw [assignableBondedArbiters, List.mem_map]
  constructor
  · rintro ⟨entry, hentry, rfl⟩
    obtain ⟨hmem, hcovers⟩ := List.mem_filter.mp hentry
    rw [decide_eq_false hfloor, Bool.false_or] at hcovers
    exact ⟨entry, hmem, rfl, hcovers⟩
  · rintro ⟨entry, hmem, rfl, hcovers⟩
    refine ⟨entry, List.mem_filter.mpr ⟨hmem, ?_⟩, rfl⟩
    rw [hcovers, Bool.or_true]

/-- At or above the floor, some arbiter other than the creator may be seated on a trade just when
the trade is not above the advertised cover. -/
theorem assignable_iff_le_cover (hbook : ExactBook bonds tenureGated trades)
    (creator : Option String) {n : ℕ} (hn : 10000 ≤ n) :
    (∃ npub ∈ assignableBondedArbiters bonds (ofInt n * 1000) trades none tenureGated,
        creator.bind normPk ≠ some npub) ↔
      ofInt n ≤ largestOnchainCoverSats bonds trades creator tenureGated := by
  have hfloor : ¬ ofInt n * 1000 < unbondedFloorMsats := by
    have hleast : unbondedFloorMsats = ofInt 10000 * fin (1000 : ℤ) := by
      rw [ofInt_eq_fin (n := 10000) (by decide),
        mul_intCast (x := 10000) (y := 1000) (by decide)]
      exact ofInt_eq_fin (n := 10000000) (by decide)
    rw [hleast, thousand_eq_intCast]
    exact not_lt_of_le (mul_fin_mono (by norm_num) (ofInt_mono (by omega)))
  rw [le_cover_iff hbook creator (by omega)]
  constructor
  · rintro ⟨npub, hassignable, hother⟩
    obtain ⟨entry, hentry, rfl, hcovers⟩ := (mem_assignable hfloor).mp hassignable
    exact ⟨entry, hentry, hother, (covers_iff hbook hentry (by omega)).mp hcovers⟩
  · rintro ⟨entry, hentry, hother, hfree⟩
    have hcovers := (covers_iff hbook hentry (by omega)).mpr hfree
    exact ⟨entry.1, (mem_assignable hfloor).mpr ⟨entry, hentry, rfl, hcovers⟩, hother⟩

end Exact

/-! ### Where the two part -/

def lockedTrade (amountMsats : JsNumber) (arbiter : String) : EscrowState where
  id := "trade"
  description := ""
  category := ""
  chamaPolicy := none
  chamaCircle := none
  paymentMethods := none
  items := none
  community := none
  tranche := .undefined
  escrowMode := .ecash
  onchainNetwork := .mainnet
  onchainAtomicRelease := none
  settlementPolicy := .undefined
  sliceCount := none
  mintUrl := ""
  stock := none
  parent := none
  claimedQuantity := none
  trancheChild := none
  initiator := ⟨sampleHex 'b', .buyer⟩
  createdAt := 0
  status := .locked
  amountMsats := amountMsats
  escrowKeys := ⟨none, none, none⟩
  onchainFundingTerms := none
  onchainRefundClaimed := false
  onchainPayoutTxid := none
  onchainPayoutAddress := none
  onchainPayoutSats := none
  settlementStalled := none
  tranchePlan := none
  childKeys := ⟨none, none, none⟩
  participants := ⟨some (sampleHex 'b'), some (sampleHex 'c'), some arbiter⟩
  joinHolds := ⟨none, none, none⟩
  communityArbiters := .arr []
  bondedArbiters := .arr []
  subscription := none
  votes := .empty
  resolvedOutcome := none
  resolvedMajority := none
  actingArbiter := none
  fees := ⟨0, "", .num 0, 0⟩
  lock := {}
  claim := {}
  listingExpiresAt := none
  tradeTimeoutSeconds := none
  expiresAt := 0
  resolvedAt := none
  completedAt := none
  cancelledAt := none
  eventChain := []
  chatMessages := []
  premiumNotes := []
  settlements := []

def bondOf (npub : String) (sats : ℕ) : CapacityBond where
  npub := npub
  actualSats := sats

section Samples

variable {npub : String} (hpk : normPk npub = some npub)

include hpk

theorem capacities_bondOf (sats : ℕ) :
    (arbiterBondCapacities [bondOf npub sats] false).entries =
      [(npub, 0 + JsNumber.ofInt sats * 1000)] := by
  have hholder : (bondOf npub sats).npub = npub := rfl
  rw [arbiterBondCapacities, List.zipIdx_cons, List.zipIdx_nil, List.foldl_cons, List.foldl_nil,
    countBond, hholder, hpk]
  rfl

variable {amountMsats : JsNumber}

theorem openTrades_lockedTrade (h : ¬ amountMsats < unbondedFloorMsats) :
    getOpenBondedTrades npub [lockedTrade amountMsats npub] none =
      [lockedTrade amountMsats npub] := by
  have harbiter : (lockedTrade amountMsats npub).participants.arbiter = some npub := rfl
  have hseat : (lockedTrade amountMsats npub).participants.arbiter.bind normPk = some npub := by
    rw [harbiter, Option.bind_some, hpk]
  have hopen : isOpenExposure (lockedTrade amountMsats npub) = true := rfl
  have hamount : decide ((lockedTrade amountMsats npub).amountMsats < unbondedFloorMsats) = false :=
    decide_eq_false h
  rw [getOpenBondedTrades, hpk]
  simp [hseat, hopen, hamount, isExcluded]

theorem cover_lockedTrade (h : ¬ amountMsats < unbondedFloorMsats) (sats : ℕ) :
    largestOnchainCoverSats [bondOf npub sats] [lockedTrade amountMsats npub] none false =
      JsNumber.max 0 ((JsNumber.max 0
        (0 + JsNumber.ofInt sats * 1000 - (0 + amountMsats))).divBy 1000).floor := by
  have hfree : freeSats [lockedTrade amountMsats npub] (npub, 0 + JsNumber.ofInt sats * 1000) =
      ((JsNumber.max 0 (0 + JsNumber.ofInt sats * 1000 - (0 + amountMsats))).divBy 1000).floor := by
    rw [freeSats, openTrades_lockedTrade hpk h]
    rfl
  rw [largestOnchainCoverSats, capacities_bondOf hpk, ← hfree]
  rfl

theorem mem_assignable_lockedTrade {amountMsats tradeMsats : JsNumber}
    (h : ¬ amountMsats < unbondedFloorMsats) {sats : ℕ}
    (hcovers : coversTrade tradeMsats (0 + amountMsats) (0 + JsNumber.ofInt sats * 1000) = true) :
    npub ∈ assignableBondedArbiters [bondOf npub sats] tradeMsats
      [lockedTrade amountMsats npub] none false := by
  have hsum : sumOpenExposure (getOpenBondedTrades npub [lockedTrade amountMsats npub] none)
      = 0 + amountMsats := by
    rw [openTrades_lockedTrade hpk h]
    rfl
  rw [assignableBondedArbiters, capacities_bondOf hpk, List.mem_map]
  refine ⟨(npub, 0 + JsNumber.ofInt sats * 1000), ?_, rfl⟩
  rw [List.mem_filter, hsum, hcovers, Bool.or_true]
  exact ⟨List.mem_cons_self, rfl⟩

theorem exactBook_lockedTrade (h : ¬ amountMsats < unbondedFloorMsats)
    (hwhole : amountMsats.toNat?.isSome = true) {sats : ℕ}
    (hsafe : 0 + JsNumber.ofInt sats * 1000 ≤ JsNumber.maxSafeInteger) :
    ExactBook [bondOf npub sats] false [lockedTrade amountMsats npub] := by
  constructor
  · rw [capacities_bondOf hpk, List.forall_mem_singleton]
    exact hsafe
  · rw [capacities_bondOf hpk, List.forall_mem_singleton, openTrades_lockedTrade hpk h,
      List.forall_mem_singleton]
    exact hwhole

end Samples

theorem normPk_holder : normPk (sampleHex 'a') = some (sampleHex 'a') :=
  normHex_self (isLowerHex_sampleHex (by decide))

/-- A bond of 20,000 sats with half of it open covers 10,000 sats. -/
theorem assignable_iff_le_cover_half :
    ((∃ npub ∈ assignableBondedArbiters [bondOf (sampleHex 'a') 20000] (.ofInt (10000 : ℕ) * 1000)
        [lockedTrade 10000000 (sampleHex 'a')] none false,
      (none : Option String).bind normPk ≠ some npub) ↔
      JsNumber.ofInt (10000 : ℕ) ≤ largestOnchainCoverSats [bondOf (sampleHex 'a') 20000]
        [lockedTrade 10000000 (sampleHex 'a')] none false) ∧
      largestOnchainCoverSats [bondOf (sampleHex 'a') 20000]
        [lockedTrade 10000000 (sampleHex 'a')] none false = 10000 := by
  have hfloor : ¬ (10000000 : JsNumber) < unbondedFloorMsats := by decide +kernel
  have hsafe : 0 + JsNumber.ofInt (20000 : ℕ) * 1000 ≤ JsNumber.maxSafeInteger := by decide +kernel
  have hbook := exactBook_lockedTrade normPk_holder hfloor rfl hsafe
  refine ⟨assignable_iff_le_cover hbook none (by norm_num), ?_⟩
  rw [cover_lockedTrade normPk_holder hfloor]
  decide +kernel

/-- A fraction of a msat is lost in one of the two sums and not in the other; and beyond `2 ^ 53`
msats so is a whole one. -/
theorem cover_inexact :
    (sampleHex 'a' ∈ assignableBondedArbiters [bondOf (sampleHex 'a') 20000] (.ofInt 10000 * 1000)
        [lockedTrade (.ofRat (10000000 + 1 / 2 ^ 29)) (sampleHex 'a')] none false ∧
      ¬ JsNumber.ofInt 10000 ≤ largestOnchainCoverSats [bondOf (sampleHex 'a') 20000]
        [lockedTrade (.ofRat (10000000 + 1 / 2 ^ 29)) (sampleHex 'a')] none false) ∧
      (sampleHex 'a' ∈ assignableBondedArbiters [bondOf (sampleHex 'a') 9007199264740]
          (.ofInt 9007199254740 * 1000) [lockedTrade 10000001 (sampleHex 'a')] none false ∧
        ¬ JsNumber.ofInt 9007199254740 ≤ largestOnchainCoverSats
          [bondOf (sampleHex 'a') 9007199264740] [lockedTrade 10000001 (sampleHex 'a')]
          none false) := by
  have hfraction : ¬ JsNumber.ofRat (10000000 + 1 / 2 ^ 29) < unbondedFloorMsats := by
    decide +kernel
  have hodd : ¬ (10000001 : JsNumber) < unbondedFloorMsats := by decide +kernel
  refine ⟨⟨mem_assignable_lockedTrade normPk_holder hfraction ?_, ?_⟩,
    mem_assignable_lockedTrade normPk_holder hodd ?_, ?_⟩
  · decide +kernel
  · rw [cover_lockedTrade normPk_holder hfraction]
    decide +kernel
  · decide +kernel
  · rw [cover_lockedTrade normPk_holder hodd]
    decide +kernel

end ChamaEscrow.Bond
