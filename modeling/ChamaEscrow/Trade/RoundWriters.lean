import ChamaEscrow.Engine.CircleWriters
import ChamaEscrow.Js.Rounding

/-!
# The writer of the next round and the gate

What the CREATE gate makes of the payload that opens the next round of a rotation.

* `rotationFromCycle_proves`: the anchor that a writer derives speaks for each round whose id its
  chain produces, so the gate derives the same rotation.
* `Times.start_exact`: a schedule that ends at a safe integer was computed without rounding.
* `WritesRound.validRound_iff`, `WritesRound.keepsCycle_iff`, `WritesRound.keepsPools`: what the
  checks of the gate come to on the written payload.
* `nextRound_accepted_iff`: the gate accepts it just when the round ends at a safe integer and,
  after the second round, the round before was filled.
-/

namespace ChamaEscrow

open Js Library

variable {host : Host}

/-! ### Lists of checks -/

theorem firstProblem_eq_none {checks : List (Bool × String)} :
    firstProblem checks = none ↔ ∀ check ∈ checks, check.1 = false := by
  simp [firstProblem]

theorem or_eq_none {a b : Option String} : a.or b = none ↔ a = none ∧ b = none := by
  cases a <;> simp

/-! ### Valid rounds -/

/-- What `validateCircleRound` asks of a round. -/
structure ValidRound (circle : CircleRound) : Prop where
  createdAt : circle.createdAt.isSafeInteger = true
  fillDeadline : circle.fillDeadlineSec.isSafeInteger = true
  roundEnd : circle.roundEndSec.isSafeInteger = true
  prev : circle.prevCircleId ≠ some ""
  share : circle.shareMsats.isSafeInteger = true ∧ 0 < circle.shareMsats
  threshold : circle.seatThreshold.isSafeInteger = true ∧ 2 ≤ circle.seatThreshold
  cap : circle.seatCap.all fun cap => cap.isSafeInteger && circle.seatThreshold ≤ cap
  opens : circle.createdAt < circle.fillDeadlineSec
  closes : circle.fillDeadlineSec < circle.roundEndSec
  bound : ¬ maxRoundSec < circle.roundEndSec - circle.createdAt
  index : circle.roundIndex.isSafeInteger = true ∧ 1 ≤ circle.roundIndex
  first : ¬ (circle.roundIndex = 1 ∧ circle.prevCircleId.isSome)
  later : ¬ (1 < circle.roundIndex ∧ (truthyKey circle.prevCircleId).isNone)

theorem validateCircleRound_eq_nil {circle : CircleRound} :
    validateCircleRound circle = [] ↔ ValidRound circle := by
  have check (p : Prop) [Decidable p] (problem : String) :
      (if p then [problem] else []) = [] ↔ ¬ p := by
    split_ifs <;> simp_all
  have check' (p : Prop) [Decidable p] (problem : String) :
      (if p then [] else [problem]) = [] ↔ p := by
    split_ifs <;> simp_all
  unfold validateCircleRound
  simp only [List.append_eq_nil_iff, check, check', Bool.and_eq_true, decide_eq_true_eq]
  constructor
  · rintro ⟨⟨⟨⟨⟨⟨⟨⟨⟨⟨⟨⟨hcreated, hfill⟩, hend⟩, hprev⟩, hshare⟩, hthreshold⟩, hcap⟩, hopens⟩,
      hcloses⟩,
      hbound⟩, hindex⟩, hfirst⟩, hlater⟩
    exact ⟨hcreated, hfill, hend, hprev, hshare, hthreshold, hcap, hopens, hcloses, hbound, hindex,
      hfirst, hlater⟩
  · rintro ⟨hcreated, hfill, hend, hprev, hshare, hthreshold, hcap, hopens, hcloses, hbound, hindex,
      hfirst, hlater⟩
    exact ⟨⟨⟨⟨⟨⟨⟨⟨⟨⟨⟨⟨hcreated, hfill⟩, hend⟩, hprev⟩, hshare⟩, hthreshold⟩, hcap⟩, hopens⟩,
        hcloses⟩,
      hbound⟩, hindex⟩, hfirst⟩, hlater⟩

/-! ### The rotation of a cycle -/

structure Anchored (host : Host) (shares : List ShareView) (circles : List CircleView)
    (proves : Option (String × JsNumber)) (rot : Rotation) : Prop where
  anchor : ∃ state ∈ circles, anchorsRotation host proves state = some rot.round1 ∧
    rot.round1Id = state.id ∧
    rot.order = rotationOrder rot.round1.creatorPubkey (commitmentLocks state.id shares)
  long : 3 ≤ rot.order.length

variable {rot : Rotation} {circles : List CircleView} {shares : List ShareView}
  {proves : Option (String × JsNumber)}

variable {firstError : Option String}

theorem rotationFrom_ok (h : rotationFrom host shares proves circles firstError = .ok rot) :
    Anchored host shares circles proves rot := by
  induction circles generalizing firstError with
  | nil => cases h
  | cons state rest ih =>
    have later {firstError : Option String}
        (h : rotationFrom host shares proves rest firstError = .ok rot) :
        Anchored host shares (state :: rest) proves rot := by
      obtain ⟨⟨found, hfound, hanchor⟩, hlong⟩ := ih h
      exact ⟨⟨found, List.mem_cons_of_mem _ hfound, hanchor⟩, hlong⟩
    unfold rotationFrom at h
    cases hanchor : anchorsRotation host proves state with
    | none =>
      rw [hanchor] at h
      exact later h
    | some c =>
      rw [hanchor] at h
      dsimp only at h
      split_ifs at h with hshort hunfilled
      · exact later h
      · exact later h
      · obtain rfl := Except.ok.inj h
        exact ⟨⟨state, List.mem_cons_self, hanchor, rfl, rfl⟩, not_lt.mp hshort⟩

/-- The first lawful anchor of a context also speaks for each round that its chain of ids
produces. -/
theorem rotationFrom_proves
    (h : rotationFrom host shares none circles firstError = .ok rot) (roundIndex : JsNumber)
    (problem : Option String) :
    rotationFrom host shares (some (roundCircleId host rot.round1Id roundIndex, roundIndex)) circles
      problem = .ok rot := by
  induction circles generalizing firstError problem with
  | nil => cases h
  | cons state rest ih =>
    have hproves : anchorsRotation host
        (some (roundCircleId host rot.round1Id roundIndex, roundIndex)) state =
          (anchorsRotation host none state).filter fun _ =>
            !(2 ≤ roundIndex && roundCircleId host state.id roundIndex ≠
              roundCircleId host rot.round1Id roundIndex) := by
      unfold anchorsRotation
      rw [Option.filter_filter]
      simp
    unfold rotationFrom at h ⊢
    rw [hproves]
    cases hanchor : anchorsRotation host none state with
    | none =>
      rw [hanchor] at h
      exact ih h problem
    | some c =>
      rw [hanchor] at h
      dsimp only at h
      split_ifs at h with hshort hunfilled
      · rw [Option.filter_some]
        split_ifs
        · dsimp only
          rw [if_pos hshort]
          exact ih h _
        · exact ih h problem
      · rw [Option.filter_some]
        split_ifs
        · dsimp only
          rw [if_neg hshort, if_pos hunfilled]
          exact ih h _
        · exact ih h problem
      · obtain rfl := Except.ok.inj h
        rw [Option.filter_some, if_pos (by simp)]
        dsimp only
        rw [if_neg hshort, if_neg hunfilled]

theorem rotationFromCycle_proves {cycle : ChamaCycleContext}
    (h : rotationFromCycle host cycle none = .ok rot) (roundIndex : JsNumber) :
    rotationFromCycle host cycle (some (roundCircleId host rot.round1Id roundIndex, roundIndex)) =
      .ok rot :=
  rotationFrom_proves h roundIndex none

theorem firstByKey_sublist {α : Type} (key : α → String) (l : List α) (seen : List String) :
    (firstByKey key l seen).Sublist l := by
  induction l generalizing seen with
  | nil => exact List.Sublist.slnil
  | cons a rest ih =>
    unfold firstByKey
    split_ifs
    · exact (ih seen).cons a
    · exact (ih _).cons_cons a

theorem mem_commitmentLocks {round1Id : String} {standing : Standing}
    (h : standing ∈ commitmentLocks round1Id shares) :
    ∃ e ∈ shares, shareStanding e = some standing := by
  unfold commitmentLocks at h
  obtain ⟨e, he, hstanding⟩ := List.mem_filterMap.mp h
  exact ⟨e, (List.mem_filter.mp ((firstByKey_sublist _ _ _).subset he)).1, hstanding⟩

theorem mem_rotationOrder {creatorPubkey : String} {locks : List Standing} {m : String}
    (h : m ∈ rotationOrder creatorPubkey locks) : ∃ standing ∈ locks, standing.member = m := by
  unfold rotationOrder at h
  have hmem : m ∈ (rankStandings (firstByKey Standing.member locks [])).map Standing.member := by
    rcases List.mem_append.mp h with h | h <;> exact (List.mem_filter.mp h).1
  obtain ⟨standing, hstanding, rfl⟩ := List.mem_map.mp hmem
  unfold rankStandings at hstanding
  rw [List.mem_insertionSort] at hstanding
  exact ⟨standing, (firstByKey_sublist _ _ _).subset hstanding, rfl⟩

theorem rotationOrder_length (creatorPubkey : String) (locks : List Standing) :
    (rotationOrder creatorPubkey locks).length ≤ locks.length := by
  unfold rotationOrder
  dsimp only
  rw [List.length_append]
  have hranked : ((rankStandings (firstByKey Standing.member locks [])).map
      Standing.member).length ≤ locks.length := by
    rw [List.length_map]
    unfold rankStandings
    rw [List.length_insertionSort]
    exact (firstByKey_sublist _ _ _).length_le
  refine le_trans (le_of_eq ?_) hranked
  have hsplit := List.length_eq_length_filter_add (l := (rankStandings (firstByKey Standing.member
    locks [])).map Standing.member) (· ≠ toLowerCase creatorPubkey)
  simpa using hsplit.symm

theorem commitmentLocks_length (round1Id : String) (shares : List ShareView) :
    (commitmentLocks round1Id shares).length ≤ shares.length := by
  unfold commitmentLocks
  refine (List.length_filterMap_le _ _).trans ?_
  exact (firstByKey_sublist _ _ _).length_le.trans (List.length_filter_le _ _)

theorem Anchored.order_length
    (h : Anchored host shares circles proves rot) : rot.order.length ≤ shares.length := by
  obtain ⟨state, -, -, -, horder⟩ := h.anchor
  rw [horder]
  exact (rotationOrder_length _ _).trans (commitmentLocks_length _ _)

theorem Anchored.valid (h : Anchored host shares circles proves rot) : ValidRound rot.round1 := by
  obtain ⟨state, -, hanchor, -, -⟩ := h.anchor
  unfold anchorsRotation at hanchor
  have hvalid := (Option.filter_eq_some_iff.mp hanchor).2
  simp only [Bool.and_eq_true, List.isEmpty_iff] at hvalid
  exact validateCircleRound_eq_nil.mp hvalid.1.2

/-! ### Replayed circles -/

/-- What the replay of a circle has seen to: it has an id and a valid round, and its pools are lists
of hex keys, the bonded ones among the others. -/
structure LawfulCircle (c : CircleView) : Prop where
  id_ne : c.id ≠ ""
  valid : ∀ round, circleFromEscrow c = some round → ValidRound round
  pools : ∃ pool bonded : List String, c.communityArbiters = .arr (pool.map .str) ∧
    c.bondedArbiters = .arr (bonded.map .str) ∧ (∀ k ∈ pool, isLowerHex 64 k = true) ∧ bonded ⊆ pool

/-- What the replay of a share has seen to: a locked one has its member in the buyer seat. -/
def LawfulShare (e : ShareView) : Prop :=
  ∀ m, e.buyer = some m → isLowerHex 64 m = true

/-- A context of replayed circles and shares; an array has less than `2^32` elements. -/
structure LawfulCycle (cycle : ChamaCycleContext) : Prop where
  circles : ∀ c ∈ cycle.circles, LawfulCircle c
  shares : ∀ e ∈ cycle.shares, LawfulShare e
  size : cycle.shares.length < 2 ^ 32

def HexDigests (host : Host) : Prop := ∀ text, isLowerHex 64 (host.sha256Hex text) = true

theorem ne_empty_of_isLowerHex {s : String} (h : isLowerHex 64 s = true) : s ≠ "" := by
  rintro rfl
  simp [isLowerHex] at h

/-! ### The schedule -/

theorem two_eq_fin : (2 : JsNumber) = .fin ((2 : ℤ) : ℚ) := JsNumber.ofInt_eq_fin (by decide)

structure Times (c : CircleRound) (created fill last : ℤ) : Prop where
  createdAt : c.createdAt = .fin created
  fillDeadline : c.fillDeadlineSec = .fin fill
  roundEnd : c.roundEndSec = .fin last
  exact : created.natAbs < JsNumber.maxExact ∧ last.natAbs < JsNumber.maxExact
  opens : created < fill
  closes : fill < last
  bound : last - created ≤ 1209600

theorem ValidRound.times {c : CircleRound} (h : ValidRound c) :
    ∃ created fill last, Times c created fill last := by
  obtain ⟨created, hcreated, hc⟩ := JsNumber.isSafeInteger_iff.mp h.createdAt
  obtain ⟨fill, -, hf⟩ := JsNumber.isSafeInteger_iff.mp h.fillDeadline
  obtain ⟨last, hlast, hl⟩ := JsNumber.isSafeInteger_iff.mp h.roundEnd
  have hopens := h.opens
  have hcloses := h.closes
  have hbound := h.bound
  rw [hc, hf, JsNumber.intCast_lt] at hopens
  rw [hf, hl, JsNumber.intCast_lt] at hcloses
  rw [hl, hc] at hbound
  refine ⟨created, fill, last, hc, hf, hl, ⟨hcreated, hlast⟩, hopens, hcloses, ?_⟩
  have hm : 1209600 < JsNumber.maxExact := by norm_num [JsNumber.maxExact]
  exact JsNumber.sub_le_of_not_lt hm hbound

variable {c : CircleRound} {created fill last : ℤ}

theorem Times.duration (h : Times c created fill last) :
    c.roundEndSec - c.createdAt = .fin ((last - created : ℤ) : ℚ) := by
  rw [h.roundEnd, h.createdAt]
  apply JsNumber.sub_intCast
  have hopens := h.opens
  have hcloses := h.closes
  have hbound := h.bound
  unfold JsNumber.maxExact
  omega

theorem Times.fillWindow (h : Times c created fill last) :
    c.fillDeadlineSec - c.createdAt = .fin ((fill - created : ℤ) : ℚ) := by
  rw [h.fillDeadline, h.createdAt]
  apply JsNumber.sub_intCast
  have hopens := h.opens
  have hcloses := h.closes
  have hbound := h.bound
  unfold JsNumber.maxExact
  omega

/-- The start of round `n` in integers. -/
def startOf (created last n : ℤ) : ℤ := last + (n - 2) * (last - created)

theorem Times.start_exact (h : Times c created fill last) {n : ℤ} (hn : 2 ≤ n) (hlarge : n ≤ 2 ^ 32)
    (hsafe : (roundStart c (.fin n) + (c.roundEndSec - c.createdAt)).isSafeInteger = true) :
    roundStart c (.fin n) = .fin (startOf created last n) ∧
      (startOf created last n + (last - created)).natAbs < JsNumber.maxExact := by
  have hopens := h.opens
  have hcloses := h.closes
  have hbound := h.bound
  have hlast := h.exact.2
  have hindex : (.fin n - 2 : JsNumber) = .fin ((n - 2 : ℤ) : ℚ) := by
    rw [two_eq_fin]
    apply JsNumber.sub_intCast
    unfold JsNumber.maxExact
    omega
  have hnonneg : 0 ≤ (n - 2) * (last - created) := by
    apply mul_nonneg <;> omega
  have hproduct : (n - 2) * (last - created) ≤ 2 ^ 32 * 1209600 := by
    apply mul_le_mul <;> omega
  have hmul : (.fin n - 2 : JsNumber) * (c.roundEndSec - c.createdAt) =
      .fin (((n - 2) * (last - created) : ℤ) : ℚ) := by
    rw [hindex, h.duration]
    apply JsNumber.mul_intCast
    unfold JsNumber.maxExact
    omega
  unfold startOf
  unfold roundStart at hsafe ⊢
  rw [hmul, h.roundEnd] at hsafe ⊢
  have hduration : (.fin last - c.createdAt : JsNumber) = .fin ((last - created : ℤ) : ℚ) := by
    rw [← h.roundEnd]
    exact h.duration
  rw [hduration] at hsafe
  by_cases hfits : last + (n - 2) * (last - created) ≤ JsNumber.maxExact
  · have hstart : (.fin last + .fin (((n - 2) * (last - created) : ℤ) : ℚ) : JsNumber) =
        .fin ((last + (n - 2) * (last - created) : ℤ) : ℚ) := by
      apply JsNumber.add_intCast
      omega
    rw [hstart] at hsafe ⊢
    refine ⟨rfl, JsNumber.add_of_safe ?_ ?_ hsafe⟩ <;> omega
  · -- A start beyond the exact integers, rounded or not, leaves the end beyond them too.
    exfalso
    have hstart : JsNumber.fin (JsNumber.maxExact : ℕ) ≤
        .fin last + .fin (((n - 2) * (last - created) : ℤ) : ℚ) := by
      apply JsNumber.maxExact_le_add
      omega
    rw [JsNumber.not_safe_of_le (JsNumber.le_add_of_nonneg (by omega) hstart)] at hsafe
    cases hsafe

/-! ### The gate on a writer's payload -/

theorem poolKeys_texts (keys : List String) : poolKeys (.arr (keys.map .str)) = keys := by
  unfold poolKeys
  dsimp only
  rw [List.filterMap_map]
  exact List.filterMap_some

theorem isCirclePool_texts {keys : List String} (h : ∀ k ∈ keys, isLowerHex 64 k = true) :
    isCirclePool (.arr (keys.map .str)) = true := by
  unfold isCirclePool
  dsimp only
  rw [List.all_map, List.all_eq_true]
  exact h

/-- A payload of a circle or a share that the first checks of the gate let pass. -/
structure Bare (p : CreatePayload) (now : JsNumber) : Prop where
  plain : isPlainCreate p = false
  pools : ∃ pool bonded : List String, p.communityArbiters = .arr (pool.map .str) ∧
    p.bondedArbiters = .arr (bonded.map .str) ∧ (∀ k ∈ pool, isLowerHex 64 k = true) ∧ bonded ⊆ pool
  stamped : p.createdAt = now ∧ now.isSafeInteger = true
  mode : p.escrowMode = .undefined
  fields : ∀ check ∈ forbiddenChamaFields p, check.1 = false

variable {p : CreatePayload}

theorem Bare.passes {now : JsNumber} (h : Bare p now) :
    firstProblem ([
      (!isCirclePool p.communityArbiters || !isCirclePool p.bondedArbiters,
        "Invalid circle arbiter pool"),
      ((poolKeys p.bondedArbiters).any fun pk => pk ∉ poolKeys p.communityArbiters,
        "Bonded arbiters must belong to the circle pool"),
      (p.createdAt ≠ now || !now.isSafeInteger, "CREATE timestamp mismatch"),
      (!p.escrowMode.isUndefined && !p.escrowMode.isText "ecash",
        "Circles and shares require ecash")] ++ forbiddenChamaFields p) = none := by
  obtain ⟨pool, bonded, hpool, hbonded, hkeys, hsubset⟩ := h.pools
  rw [firstProblem_eq_none]
  intro check hcheck
  rcases List.mem_append.mp hcheck with hcheck | hcheck
  swap
  · exact h.fields check hcheck
  simp only [List.mem_cons, List.not_mem_nil, or_false] at hcheck
  rcases hcheck with rfl | rfl | rfl | rfl
  · rw [hpool, hbonded, isCirclePool_texts hkeys,
      isCirclePool_texts fun k hk => hkeys k (hsubset hk)]
    rfl
  · rw [hpool, hbonded, poolKeys_texts, poolKeys_texts, List.any_eq_false]
    intro k hk
    simpa using hsubset hk
  · simp [h.stamped.1, h.stamped.2]
  · rw [h.mode]
    rfl

theorem chamaCreateError_circle {now : JsNumber} (h : Bare p now)
    (hcategory : p.category = "chama") (id pubkey : String) (parent : Option CircleView)
    (witness : Option ShareView) (cycle : Option ChamaCycleContext) (sim : Bool) :
    chamaCreateError host p id pubkey now parent witness cycle sim =
      .ok (circleCreateError host p id pubkey now cycle sim) := by
  unfold chamaCreateError
  rw [h.plain, if_neg Bool.false_ne_true, h.passes]
  dsimp only
  rw [if_pos hcategory]

theorem chamaCreateError_share {now : JsNumber} {policy : ChamaPolicy}
    (h : Bare p now) (hcategory : p.category = "chama-share")
    (hpolicy : p.chamaPolicy = .known policy)
    (hcircle : p.chamaCircle = .absent) (id pubkey : String) (parent : Option CircleView)
    (witness : Option ShareView) (cycle : Option ChamaCycleContext) (sim : Bool) :
    chamaCreateError host p id pubkey now parent witness cycle sim =
      shareCreateError host p policy id pubkey now parent witness cycle := by
  unfold chamaCreateError
  rw [h.plain, if_neg Bool.false_ne_true, h.passes]
  dsimp only
  rw [hcategory, if_neg (by decide), hpolicy, hcircle]
  dsimp only
  rw [if_pos rfl]

/-! ### The next round -/

def RoundFilled (host : Host) (rot : Rotation) (shares : List ShareView) (roundIndex : JsNumber) :
    Prop :=
  ∃ collector, collectorForRound host rot shares roundIndex = some collector ∧
    ∀ m ∈ rot.order, m = collector ∨
      ∃ e ∈ shares, e.chamaPolicy = some .shareV2 ∧
        e.parent = some (roundCircleId host rot.round1Id roundIndex) ∧
        (shareStanding e).map Standing.member = some m

def IsRound (roundIndex : JsNumber) : Prop :=
  ∃ n : ℤ, 1 ≤ n ∧ n < JsNumber.maxExact ∧ roundIndex = .fin n

theorem ValidRound.isRound (h : ValidRound c) : IsRound c.roundIndex := by
  obtain ⟨n, hn, heq⟩ := JsNumber.isSafeInteger_iff.mp h.index.1
  have hpos := h.index.2
  rw [heq, JsNumber.one_eq_fin, JsNumber.intCast_le] at hpos
  exact ⟨n, hpos, by omega, heq⟩

theorem isRound_lastRound
    (h : ∀ c ∈ circles, LawfulCircle c) : IsRound (lastRound host rot circles) := by
  unfold lastRound
  have hone : IsRound 1 := ⟨1, le_rfl, by norm_num [JsNumber.maxExact], JsNumber.one_eq_fin⟩
  refine List.foldlRecOn (motive := IsRound) circles _ hone fun last hlast state hstate => ?_
  cases hround : circleFromEscrow state with
  | none => exact hlast
  | some c =>
    dsimp only
    split_ifs
    · exact hlast
    · exact ((h state hstate).valid c hround).isRound
    · exact hlast

structure KeepsCycle (host : Host) (cycle : ChamaCycleContext) (rot : Rotation) (c : CircleRound)
    (pubkey : String) (now : JsNumber) : Prop where
  named : c.circleId = roundCircleId host rot.round1Id c.roundIndex
  prev : c.prevCircleId = some (if c.roundIndex = 2 then rot.round1Id
    else roundCircleId host rot.round1Id (c.roundIndex - 1))
  within : ¬ JsNumber.ofInt rot.order.length + 1 < c.roundIndex
  member : toLowerCase pubkey ∈ rot.order
  terms : c.shareMsats = rot.round1.shareMsats ∧ c.community = rot.round1.community ∧
    c.mintUrl = rot.round1.mintUrl
  seats : c.seatThreshold = JsNumber.ofInt rot.order.length - 1 ∧
    c.seatCap = some (JsNumber.ofInt rot.order.length - 1)
  unlisted : c.unlisted = true
  schedule : c.fillDeadlineSec = roundStart rot.round1 c.roundIndex +
      (rot.round1.fillDeadlineSec - rot.round1.createdAt) ∧
    c.roundEndSec = roundStart rot.round1 c.roundIndex +
      (rot.round1.roundEndSec - rot.round1.createdAt)
  started : ¬ now < roundStart rot.round1 c.roundIndex
  open_ : ¬ c.fillDeadlineSec ≤ now
  filled : 2 < c.roundIndex → RoundFilled host rot cycle.shares (c.roundIndex - 1)

theorem filledChecks_iff {cycle : ChamaCycleContext} {roundIndex : JsNumber} :
    ((decide (2 < roundIndex) && (collectorForRound host rot cycle.shares (roundIndex - 1)).isNone) =
        false ∧
      (decide (2 < roundIndex) && !rot.order.all fun m =>
        decide (some m = collectorForRound host rot cycle.shares (roundIndex - 1)) ||
          ((cycle.shares.filter fun e => e.chamaPolicy = some .shareV2 ∧ e.parent = some
            (if roundIndex = 2 then rot.round1Id
              else roundCircleId host rot.round1Id (roundIndex - 1))).filterMap
                shareStanding).any fun s => decide (s.member = m)) = false) ↔
      (2 < roundIndex → RoundFilled host rot cycle.shares (roundIndex - 1)) := by
  by_cases hlate : 2 < roundIndex
  swap
  · simp [hlate]
  have hne : roundIndex ≠ 2 := by
    rintro rfl
    revert hlate
    decide
  unfold RoundFilled
  simp only [hlate, decide_true, Bool.true_and, if_neg hne, forall_const, Bool.not_eq_false']
  cases hcollector : collectorForRound host rot cycle.shares (roundIndex - 1) with
  | none => simp
  | some collector =>
    simp only [Option.isNone_some, true_and, Option.some.injEq, exists_eq_left', List.all_eq_true,
      Bool.or_eq_true, decide_eq_true_eq, List.any_eq_true, List.mem_filterMap, List.mem_filter,
      Option.map_eq_some_iff]
    refine forall_congr' fun m => imp_congr_right fun _ => or_congr_right ?_
    constructor
    · rintro ⟨standing, ⟨e, ⟨he, hpolicy, hparent⟩, hstanding⟩, hmember⟩
      exact ⟨e, he, hpolicy, hparent, standing, hstanding, hmember⟩
    · rintro ⟨e, he, hpolicy, hparent, standing, hstanding, hmember⟩
      exact ⟨standing, ⟨e, ⟨he, hpolicy, hparent⟩, hstanding⟩, hmember⟩

theorem chainedRoundError_eq_none {cycle : ChamaCycleContext} {c : CircleRound}
    {pubkey : String} {now : JsNumber}
    (hrot : rotationFromCycle host cycle (some (c.circleId, c.roundIndex)) = .ok rot) :
    chainedRoundError host c pubkey now (some cycle) = none ↔
      KeepsCycle host cycle rot c pubkey now := by
  unfold chainedRoundError
  dsimp only
  rw [hrot]
  dsimp only
  rw [firstProblem_eq_none]
  simp only [List.forall_mem_cons, List.not_mem_nil, false_imp_iff, implies_true, and_true]
  rw [filledChecks_iff]
  simp only [decide_eq_false_iff_not, not_not, Bool.or_eq_false_iff, Bool.not_eq_false', ne_eq]
  constructor
  · rintro ⟨hnamed, hprev, hwithin, hmember, ⟨⟨hshare, hcommunity⟩, hmint⟩, hseats, hunlisted,
      hschedule, hstarted, hopen, hfilled⟩
    exact ⟨hnamed, hprev, hwithin, hmember, ⟨hshare, hcommunity, hmint⟩, hseats, hunlisted,
        hschedule,
      hstarted, hopen, hfilled⟩
  · rintro ⟨hnamed, hprev, hwithin, hmember, ⟨hshare, hcommunity, hmint⟩, hseats, hunlisted,
      hschedule, hstarted, hopen, hfilled⟩
    exact ⟨hnamed, hprev, hwithin, hmember, ⟨⟨hshare, hcommunity⟩, hmint⟩, hseats, hunlisted,
      hschedule, hstarted, hopen, hfilled⟩

def createdRound (p : CreatePayload) (terms : CircleTerms) (id pubkey : String) (now : JsNumber) :
    CircleRound :=
  { terms with
    circleId := id
    creatorPubkey := pubkey
    community := p.community.getD ""
    mintUrl := p.mintUrl
    createdAt := now }

theorem circleCreateError_chained {terms : CircleTerms} {id pubkey : String}
    {now : JsNumber} {cycle : ChamaCycleContext} {sim : Bool}
    (hcircle : p.chamaCircle = .terms terms) (hpolicy : p.chamaPolicy = .absent)
    (hparent : p.parent = none) (hpot : terms.pot = .rotationV2) (hlater : 1 < terms.roundIndex)
    (hfirst : terms.roundIndex ≠ 1) :
    circleCreateError host p id pubkey now (some cycle) sim = none ↔
      ValidRound (createdRound p terms id pubkey now) ∧ now + p.expirySeconds = terms.roundEndSec ∧
      chainedRoundError host (createdRound p terms id pubkey now) pubkey now (some cycle) = none ∧
      chainedCreateError host p (createdRound p terms id pubkey now) cycle = none := by
  unfold circleCreateError
  rw [hcircle, hpolicy, hparent, ← validateCircleRound_eq_nil]
  change (if (!(validateCircleRound (createdRound p terms id pubkey now)).isEmpty) = true then _
    else _) = none ↔ _
  by_cases hvalid : validateCircleRound (createdRound p terms id pubkey now) = []
  swap
  · rw [if_pos (by simpa using hvalid)]
    simp [hvalid]
  rw [if_neg (by simp [hvalid])]
  by_cases hexpiry : now + p.expirySeconds = terms.roundEndSec
  swap
  · rw [if_pos hexpiry]
    simp [hexpiry]
  rw [if_neg (not_not.mpr hexpiry)]
  simp only [hpot]
  rw [if_neg (by simp [hfirst]), if_pos hlater, or_eq_none]
  simp only [hvalid, hexpiry, true_and, Option.bind_some]
  rfl

structure WritesRound (host : Host) (cycle : ChamaCycleContext) (now : JsNumber)
    (feePubkey : String)
    (id : String) (p : CreatePayload) (rot : Rotation) (next : JsNumber) : Prop where
  derived : rotationFromCycle host cycle none = .ok rot
  number : next = lastRound host rot cycle.circles + 1
  within : ¬ JsNumber.ofInt rot.order.length + 1 < next
  started : ¬ now < roundStart rot.round1 next
  open_ : ¬ roundStart rot.round1 next + (rot.round1.fillDeadlineSec - rot.round1.createdAt) ≤ now
  named : id = roundCircleId host rot.round1Id next
  payload : ∃ round1State, cycle.circles.find? (fun st => st.id = rot.round1Id) = some round1State ∧
    roundPayload host rot next now round1State feePubkey = .ok p

theorem nextRotationRoundPayload_ok {cycle : ChamaCycleContext} {now : JsNumber}
    {feePubkey id : String} (hrot : rotationFromCycle host cycle none = .ok rot)
    (h : nextRotationRoundPayload host cycle now feePubkey = .ok (.ok (id, p))) :
    WritesRound host cycle now feePubkey id p rot (lastRound host rot cycle.circles + 1) := by
  unfold nextRotationRoundPayload at h
  rw [hrot] at h
  dsimp only at h
  split_ifs at h with hwithin hstarted hopen
  · cases h
  · cases h
  · cases h
  · split at h
    · cases h
    · rename_i round1State hfound
      simp only [bind_eq_ok, pure_eq_ok, Except.ok.injEq, Prod.mk.injEq] at h
      obtain ⟨payload, hpayload, rfl, rfl⟩ := h
      exact ⟨hrot, rfl, hwithin, hstarted, hopen, rfl, round1State, hfound, hpayload⟩

variable {cycle : ChamaCycleContext} {now next : JsNumber} {feePubkey id pubkey : String}
  {p : CreatePayload} {rot : Rotation}

theorem WritesRound.anchored (h : WritesRound host cycle now feePubkey id p rot next) :
    Anchored host cycle.shares cycle.circles none rot :=
  rotationFrom_ok h.derived

theorem order_le (hcycle : LawfulCycle cycle)
    (h : Anchored host cycle.shares cycle.circles none rot) :
    rot.order.length < 2 ^ 32 :=
  h.order_length.trans_lt hcycle.size

theorem ofInt_order (hsize : rot.order.length < 2 ^ 32) :
    JsNumber.ofInt rot.order.length = .fin ((rot.order.length : ℤ) : ℚ) := by
  apply JsNumber.ofInt_eq_fin
  unfold JsNumber.maxExact
  omega

theorem WritesRound.index (h : WritesRound host cycle now feePubkey id p rot next)
    (hcycle : LawfulCycle cycle) :
    ∃ n : ℤ, 2 ≤ n ∧ n ≤ rot.order.length + 1 ∧ next = .fin n := by
  have hsize := order_le hcycle h.anchored
  obtain ⟨n, hpos, hlarge, hlast⟩ : IsRound (lastRound host rot cycle.circles) :=
    isRound_lastRound hcycle.circles
  have hnext : next = .fin ((n + 1 : ℤ) : ℚ) := by
    rw [h.number, hlast, JsNumber.one_eq_fin]
    apply JsNumber.add_intCast
    omega
  have hwithin := h.within
  have hmembers : JsNumber.ofInt rot.order.length + 1 =
      .fin ((rot.order.length + 1 : ℤ) : ℚ) := by
    rw [ofInt_order hsize, JsNumber.one_eq_fin]
    apply JsNumber.add_intCast
    unfold JsNumber.maxExact
    omega
  rw [hmembers, hnext, JsNumber.intCast_lt] at hwithin
  exact ⟨n + 1, by omega, by omega, hnext⟩

theorem seats_eq (hsize : rot.order.length < 2 ^ 32) (hlong : 3 ≤ rot.order.length) :
    JsNumber.ofInt rot.order.length - 1 = .fin ((rot.order.length - 1 : ℤ) : ℚ) := by
  rw [ofInt_order hsize, JsNumber.one_eq_fin]
  apply JsNumber.sub_intCast
  unfold JsNumber.maxExact
  omega

theorem WritesRound.eq (h : WritesRound host cycle now feePubkey id p rot next)
    (hcycle : LawfulCycle cycle) :
    ∃ round1State, ∃ pool bonded : List String,
      cycle.circles.find? (fun st => st.id = rot.round1Id) = some round1State ∧
      round1State.communityArbiters = .arr (pool.map .str) ∧
      round1State.bondedArbiters = .arr (bonded.map .str) ∧
      (∀ k ∈ pool, isLowerHex 64 k = true) ∧ bonded ⊆ pool ∧
      p = {
        description := round1State.description
        category := "chama"
        chamaCircle := .terms (roundTerms host rot next)
        amountMsats := rot.round1.shareMsats
        mintUrl := rot.round1.mintUrl
        community := truthyKey (some rot.round1.community)
        fed := round1State.fed
        fedPrefix := round1State.fedPrefix
        platformFeeBps := 0
        platformFeePubkey := feePubkey
        arbiterFeeMsats := .num 0
        communityArbiters := .arr (pool.map .str)
        bondedArbiters := .arr (bonded.map .str)
        expirySeconds := (roundTerms host rot next).roundEndSec - now
        createdAt := now } := by
  obtain ⟨round1State, hfound, hpayload⟩ := h.payload
  obtain ⟨pool, bonded, hpool, hbonded, hkeys, hsubset⟩ :=
    (hcycle.circles _ (List.mem_of_find?_eq_some hfound)).pools
  refine ⟨round1State, pool, bonded, hfound, hpool, hbonded, hkeys, hsubset, ?_⟩
  unfold roundPayload at hpayload
  rw [hpool, hbonded] at hpayload
  exact (Except.ok.inj hpayload).symm

theorem WritesRound.bare (h : WritesRound host cycle now feePubkey id p rot next)
    (hcycle : LawfulCycle cycle) (hnow : now.isSafeInteger = true) : Bare p now := by
  obtain ⟨round1State, pool, bonded, -, -, -, hkeys, hsubset, rfl⟩ := h.eq hcycle
  refine ⟨rfl, ⟨pool, bonded, rfl, rfl, hkeys, hsubset⟩, ⟨rfl, hnow⟩, rfl, fun check hcheck => ?_⟩
  simp only [forbiddenChamaFields, List.mem_cons, List.not_mem_nil, or_false] at hcheck
  rcases hcheck with rfl | rfl | rfl | rfl | rfl | rfl | rfl | rfl | rfl | rfl | rfl <;> rfl

theorem WritesRound.scheduled (h : WritesRound host cycle now feePubkey id p rot next)
    (hcycle : LawfulCycle cycle) (hnow : now.isSafeInteger = true)
    (hsafe : (roundTerms host rot next).roundEndSec.isSafeInteger = true) :
    ∃ t fill last : ℤ, now = .fin t ∧ t.natAbs < JsNumber.maxExact ∧
      (roundTerms host rot next).fillDeadlineSec = .fin fill ∧ fill.natAbs < JsNumber.maxExact ∧
      (roundTerms host rot next).roundEndSec = .fin last ∧ last.natAbs < JsNumber.maxExact ∧
      t < fill ∧ fill < last ∧ last - t ≤ 1209600 := by
  obtain ⟨n, hn, hwithin, rfl⟩ := h.index hcycle
  obtain ⟨created, fill, last, htimes⟩ := h.anchored.valid.times
  have hsize := order_le hcycle h.anchored
  have hlarge : n ≤ 2 ^ 32 := by omega
  obtain ⟨hstart, hend⟩ := htimes.start_exact hn hlarge hsafe
  obtain ⟨t, ht, rfl⟩ := JsNumber.isSafeInteger_iff.mp hnow
  have hopens := htimes.opens
  have hcloses := htimes.closes
  have hbound := htimes.bound
  have hlast := htimes.exact.2
  have hlater : last ≤ startOf created last n := by
    have : 0 ≤ (n - 2) * (last - created) := by apply mul_nonneg <;> omega
    unfold startOf
    omega
  have hfillEq : (roundTerms host rot (.fin n)).fillDeadlineSec =
      .fin ((startOf created last n + (fill - created) : ℤ) : ℚ) := by
    change roundStart rot.round1 (.fin n) + (rot.round1.fillDeadlineSec - rot.round1.createdAt) = _
    rw [hstart, htimes.fillWindow]
    apply JsNumber.add_intCast
    omega
  have hendEq : (roundTerms host rot (.fin n)).roundEndSec =
      .fin ((startOf created last n + (last - created) : ℤ) : ℚ) := by
    change roundStart rot.round1 (.fin n) + (rot.round1.roundEndSec - rot.round1.createdAt) = _
    rw [hstart, htimes.duration]
    apply JsNumber.add_intCast
    omega
  have hstarted := h.started
  rw [hstart, JsNumber.intCast_lt] at hstarted
  have hopen := h.open_
  change ¬ (roundTerms host rot (.fin n)).fillDeadlineSec ≤ _ at hopen
  rw [hfillEq, JsNumber.intCast_le] at hopen
  exact ⟨t, _, _, rfl, ht, hfillEq, by omega, hendEq, hend, by omega, by omega, by omega⟩

theorem WritesRound.validRound_iff (h : WritesRound host cycle now feePubkey id p rot next)
    (hcycle : LawfulCycle cycle) (hhost : HexDigests host) (hnow : now.isSafeInteger = true) :
    ValidRound (createdRound p (roundTerms host rot next) id pubkey now) ↔
      (roundTerms host rot next).roundEndSec.isSafeInteger = true := by
  refine ⟨fun hvalid => hvalid.roundEnd, fun hsafe => ?_⟩
  obtain ⟨t, fill, last, ht, -, hfill, hfillSafe, hlast, hlastSafe, hopens, hcloses, hbound⟩ :=
    h.scheduled hcycle hnow hsafe
  obtain ⟨n, hn, hwithin, hnext⟩ := h.index hcycle
  have hfirst := h.anchored.valid
  have hlong := h.anchored.long
  have hsize := order_le hcycle h.anchored
  have hseats : (roundTerms host rot next).seatThreshold =
      .fin ((rot.order.length - 1 : ℤ) : ℚ) := seats_eq hsize hlong
  have hseatsSafe : (roundTerms host rot next).seatThreshold.isSafeInteger = true := by
    refine JsNumber.isSafeInteger_iff.mpr ⟨_, ?_, hseats⟩
    unfold JsNumber.maxExact
    omega
  have hprev : ∃ prev, (roundTerms host rot next).prevCircleId = some prev ∧ prev ≠ "" := by
    refine ⟨_, rfl, ?_⟩
    split_ifs
    · obtain ⟨state, hstate, -, hid, -⟩ := h.anchored.anchor
      rw [hid]
      exact (hcycle.circles state hstate).id_ne
    · exact ne_empty_of_isLowerHex (hhost _)
  obtain ⟨prev, hprevEq, hprevNe⟩ := hprev
  refine {
    createdAt := hnow
    fillDeadline := JsNumber.isSafeInteger_iff.mpr ⟨fill, hfillSafe, hfill⟩
    roundEnd := hsafe
    prev := ?_
    share := hfirst.share
    threshold := ⟨hseatsSafe, ?_⟩
    cap := ?_
    opens := ?_
    closes := ?_
    bound := ?_
    index := ?_
    first := ?_
    later := ?_ }
  · change (roundTerms host rot next).prevCircleId ≠ some ""
    rw [hprevEq]
    simpa using hprevNe
  · change 2 ≤ (roundTerms host rot next).seatThreshold
    rw [hseats, two_eq_fin, JsNumber.intCast_le]
    omega
  · change (some (roundTerms host rot next).seatThreshold).all _ = true
    rw [Option.all_some, Bool.and_eq_true, decide_eq_true_eq]
    refine ⟨hseatsSafe, ?_⟩
    change (roundTerms host rot next).seatThreshold ≤ (roundTerms host rot next).seatThreshold
    rw [hseats, JsNumber.intCast_le]
  · change now < (roundTerms host rot next).fillDeadlineSec
    rw [ht, hfill, JsNumber.intCast_lt]
    exact hopens
  · change (roundTerms host rot next).fillDeadlineSec < (roundTerms host rot next).roundEndSec
    rw [hfill, hlast, JsNumber.intCast_lt]
    exact hcloses
  · change ¬ maxRoundSec < (roundTerms host rot next).roundEndSec - now
    have hround : maxRoundSec = .fin ((1209600 : ℤ) : ℚ) :=
      JsNumber.ofInt_eq_fin (n := 1209600) (by decide)
    rw [hlast, ht, hround, JsNumber.sub_intCast (by unfold JsNumber.maxExact; omega),
      JsNumber.intCast_lt]
    omega
  · change next.isSafeInteger = true ∧ 1 ≤ next
    rw [hnext, JsNumber.one_eq_fin, JsNumber.intCast_le]
    refine ⟨JsNumber.isSafeInteger_iff.mpr ⟨n, ?_, rfl⟩, by omega⟩
    unfold JsNumber.maxExact
    omega
  · change ¬ (next = 1 ∧ _)
    rw [hnext, JsNumber.one_eq_fin, JsNumber.intCast_inj]
    omega
  · change ¬ (_ ∧ (truthyKey (roundTerms host rot next).prevCircleId).isNone = true)
    rw [hprevEq, truthyKey]
    simp [hprevNe]

theorem getD_truthyKey (s : String) : (truthyKey (some s)).getD "" = s := by
  by_cases h : s = ""
  · rw [h]
    rfl
  · rw [truthyKey, Option.filter_some, if_pos (by simpa using h)]
    rfl

theorem WritesRound.keepsCycle_iff (h : WritesRound host cycle now feePubkey id p rot next)
    (hcycle : LawfulCycle cycle) (hmember : toLowerCase pubkey ∈ rot.order) :
    KeepsCycle host cycle rot (createdRound p (roundTerms host rot next) id pubkey now) pubkey now ↔
      (2 < next → RoundFilled host rot cycle.shares (next - 1)) := by
  refine ⟨fun hkeeps => hkeeps.filled, fun hfilled => ?_⟩
  obtain ⟨round1State, pool, bonded, -, -, -, -, -, hp⟩ := h.eq hcycle
  have hcommunity : p.community.getD "" = rot.round1.community := by
    rw [hp]
    exact getD_truthyKey _
  have hmint : p.mintUrl = rot.round1.mintUrl := by rw [hp]
  exact {
    named := h.named
    prev := rfl
    within := h.within
    member := hmember
    terms := ⟨rfl, hcommunity, hmint⟩
    seats := ⟨rfl, rfl⟩
    unlisted := rfl
    schedule := ⟨rfl, rfl⟩
    started := h.started
    open_ := h.open_
    filled := hfilled }

theorem WritesRound.keepsPools (h : WritesRound host cycle now feePubkey id p rot next)
    (hcycle : LawfulCycle cycle) :
    chainedCreateError host p (createdRound p (roundTerms host rot next) id pubkey now) cycle =
      none := by
  obtain ⟨round1State, pool, bonded, hfound, hpool, hbonded, -, -, hp⟩ := h.eq hcycle
  have hproves := rotationFromCycle_proves h.derived next
  rw [← h.named] at hproves
  unfold chainedCreateError
  simp only [createdRound, roundTerms]
  rw [hproves]
  dsimp only
  rw [hfound]
  dsimp only
  rw [firstProblem_eq_none, hpool, hbonded, hp]
  simp

theorem nextRound_accepted_iff (hhost : HexDigests host) (hcycle : LawfulCycle cycle)
    (hrot : rotationFromCycle host cycle none = .ok rot)
    (hwrites : nextRotationRoundPayload host cycle now feePubkey = .ok (.ok (id, p)))
    (hnow : now.isSafeInteger = true) (hmember : toLowerCase pubkey ∈ rot.order)
    (parent : Option CircleView) (witness : Option ShareView) (sim : Bool) :
    chamaCreateError host p id pubkey now parent witness (some cycle) sim = .ok none ↔
      (roundTerms host rot (lastRound host rot cycle.circles + 1)).roundEndSec.isSafeInteger =
          true ∧
      (2 < lastRound host rot cycle.circles + 1 →
        RoundFilled host rot cycle.shares (lastRound host rot cycle.circles + 1 - 1)) := by
  have h := nextRotationRoundPayload_ok hrot hwrites
  generalize lastRound host rot cycle.circles + 1 = next at h ⊢
  obtain ⟨n, hn, hwithin, hnext⟩ := h.index hcycle
  obtain ⟨round1State, pool, bonded, -, -, -, -, -, hp⟩ := h.eq hcycle
  have hcategory : p.category = "chama" := by rw [hp]
  have hcircle : p.chamaCircle = .terms (roundTerms host rot next) := by rw [hp]
  have hpolicy : p.chamaPolicy = .absent := by rw [hp]
  have hparent : p.parent = none := by rw [hp]
  have hexpiry : p.expirySeconds = (roundTerms host rot next).roundEndSec - now := by rw [hp]
  have hlater : 1 < next := by
    rw [hnext, JsNumber.one_eq_fin, JsNumber.intCast_lt]
    omega
  have hfirst : next ≠ 1 := by
    rw [hnext, JsNumber.one_eq_fin, Ne, JsNumber.intCast_inj]
    omega
  have hproves := rotationFromCycle_proves h.derived next
  rw [← h.named] at hproves
  rw [chamaCreateError_circle (h.bare hcycle hnow) hcategory, Except.ok.injEq,
    circleCreateError_chained hcircle hpolicy hparent rfl hlater hfirst,
    h.validRound_iff hcycle hhost hnow, chainedRoundError_eq_none hproves,
    h.keepsCycle_iff hcycle hmember]
  constructor
  · rintro ⟨hsafe, -, hfilled, -⟩
    exact ⟨hsafe, hfilled⟩
  · rintro ⟨hsafe, hfilled⟩
    refine ⟨hsafe, ?_, hfilled, h.keepsPools hcycle⟩
    obtain ⟨t, fill, last, rfl, ht, -, -, hlast, hlastSafe, hopens, hcloses, hbound⟩ :=
      h.scheduled hcycle hnow hsafe
    rw [hexpiry, hlast, JsNumber.sub_intCast (by unfold JsNumber.maxExact; omega),
      JsNumber.add_intCast (by omega)]
    congr 2
    omega

end ChamaEscrow
