import ChamaEscrow.Trade.RoundLaw
import ChamaEscrow.Trade.RoundWriters

/-!
# The writers of shares and the gate

What the CREATE gate makes of the payloads that the writers of shares return, and of all three
writers in a sealed circle.

* `pickPreferredArbiter_hex`: an arbiter is found just when the pool has a key beside the seats.
* `share_accepted_iff`: what the gate asks of the payload of a share.
* `writers_meet_gate`: for a member of a sealed circle, what is left to the gate of a written round
  or share, and that the gate accepts the payload as soon as that holds.
-/

namespace ChamaEscrow

open Js Library

variable {host : Host}

/-! ### Hex keys -/

theorem toLower_of_hex {c : Char} (h : (c.isDigit || ('a' ≤ c && c ≤ 'f')) = true) :
    c.toLower = c := by
  simp only [Bool.or_eq_true, Bool.and_eq_true, decide_eq_true_eq, Char.isDigit, Char.le_def,
    UInt32.le_iff_toNat_le] at h
  have ha : 'a'.val.toNat = 97 := rfl
  have hA : 'A'.val.toNat = 65 := rfl
  have hZ : 'Z'.val.toNat = 90 := rfl
  have hnine : '9'.val.toNat = 57 := rfl
  unfold Char.toLower
  rw [dif_neg]
  rintro ⟨hlow, hhigh⟩
  rw [ge_iff_le, UInt32.le_iff_toNat_le] at hlow
  rw [UInt32.le_iff_toNat_le] at hhigh
  omega

variable {s : String}

theorem toLowerCase_of_isLowerHex {n : ℕ} (h : isLowerHex n s = true) : toLowerCase s = s := by
  rw [isLowerHex, Bool.and_eq_true, List.all_eq_true] at h
  unfold toLowerCase
  have hmap : s.toList.map Char.toLower = s.toList := by
    conv_rhs => rw [← List.map_id s.toList]
    exact List.map_congr_left fun c hc => toLower_of_hex (h.2 c hc)
  rw [hmap, String.ofList_toList]

theorem jsonText_plain
    (h : ∀ c ∈ s.toList, c ∉ ['"', '\\', '\n', '\r', '\t']) : jsonText s = "\"" ++ s ++ "\"" := by
  have hchar : ∀ c ∈ s.toList, jsonChar c = String.ofList [c] := by
    intro c hc
    have := h c hc
    simp only [List.mem_cons, List.not_mem_nil, or_false, not_or] at this
    simp [jsonChar, this]
  unfold jsonText
  rw [List.map_congr_left hchar]
  congr 2
  apply String.toList_inj.mp
  rw [String.toList_join, List.flatMap_map]
  simp

theorem jsonText_hex {n : ℕ} (h : isLowerHex n s = true) : jsonText s = "\"" ++ s ++ "\"" := by
  rw [isLowerHex, Bool.and_eq_true, List.all_eq_true] at h
  refine jsonText_plain fun c hc hmem => ?_
  have hhex := h.2 c hc
  revert hhex
  simp only [List.mem_cons, List.not_mem_nil, or_false] at hmem
  rcases hmem with rfl | rfl | rfl | rfl | rfl <;> decide

/-! ### The arbiter of a share -/

theorem filterByKey_hex (keep : Bool) (keys : List String) {pool : List String}
    (h : ∀ k ∈ pool, isLowerHex 64 k = true) :
    filterByKey keep keys (pool.map .str) =
      .ok (pool.filter fun k => (k ∈ keys) = (keep = true)) := by
  induction pool with
  | nil => rfl
  | cons k rest ih =>
    have hkey := toLowerCase_of_isLowerHex (h k List.mem_cons_self)
    have hrest := ih fun k hk => h k (List.mem_cons_of_mem _ hk)
    simp only [List.map_cons, filterByKey, JsValue.lowered, hrest, hkey, JsValue.text?, bind,
      Except.bind, pure, Except.pure, Option.getD_some, List.filter_cons, decide_eq_true_eq]

theorem loweredKeys_hex {pool : List String} (h : ∀ k ∈ pool, isLowerHex 64 k = true) :
    loweredKeys (pool.map .str) = .ok pool := by
  induction pool with
  | nil => rfl
  | cons k rest ih =>
    have hkey := toLowerCase_of_isLowerHex (h k List.mem_cons_self)
    have hrest := ih fun k hk => h k (List.mem_cons_of_mem _ hk)
    simp only [List.map_cons, loweredKeys, JsValue.lowered, hrest, hkey, bind, Except.bind, pure,
      Except.pure]

variable {pool : List String} {a b : String}

theorem excludedKeys_hex (ha : isLowerHex 64 a = true) (hb : isLowerHex 64 b = true) :
    excludedKeys [some a, some b] = [a, b] := by
  have hkey {k : String} (hk : isLowerHex 64 k = true) :
      truthyKey ((some k).map toLowerCase) = some k := by
    rw [Option.map_some, toLowerCase_of_isLowerHex hk]
    exact truthyKey_some (ne_empty_of_isLowerHex hk)
  simp only [excludedKeys, List.filterMap_cons, hkey ha, hkey hb, List.filterMap_nil]

theorem pickCandidate_isSome {candidates : List String} (escrowId : String)
    (h : ∀ k ∈ candidates, k ≠ "") :
    (truthyKey (pickCandidate candidates escrowId)).isSome = true ↔ candidates ≠ [] := by
  unfold pickCandidate
  constructor
  · rintro hpick rfl
    cases hpick
  · intro hne
    have hlength : 0 < candidates.length := List.length_pos_iff.mpr hne
    have hindex := Nat.mod_lt (idHash escrowId).natAbs hlength
    rw [List.getElem?_eq_getElem hindex, truthyKey_some (h _ (List.getElem_mem hindex))]
    rfl

theorem pickArbiterFromPool_hex (hpool : ∀ k ∈ pool, isLowerHex 64 k = true)
    (ha : isLowerHex 64 a = true) (hb : isLowerHex 64 b = true) (escrowId : String) :
    ∃ pick, pickArbiterFromPool (.arr (pool.map .str)) escrowId [some a, some b] = .ok pick ∧
      ((truthyKey pick).isSome = true ↔ ∃ k ∈ pool, k ≠ a ∧ k ≠ b) := by
  unfold pickArbiterFromPool
  rw [excludedKeys_hex ha hb]
  simp only [JsValue.items, bind, Except.bind, filterByKey_hex false _ hpool]
  refine ⟨_, rfl, ?_⟩
  rw [pickCandidate_isSome]
  · rw [Ne, List.filter_eq_nil_iff]
    simp
  · intro k hk
    exact ne_empty_of_isLowerHex (hpool k (List.mem_filter.mp hk).1)

theorem pickPreferredArbiter_hex {bonded : List String}
    (hpool : ∀ k ∈ pool, isLowerHex 64 k = true) (hbonded : bonded ⊆ pool)
    (ha : isLowerHex 64 a = true) (hb : isLowerHex 64 b = true) (escrowId : String) :
    ∃ pick, pickPreferredArbiter (.arr (pool.map .str)) (.arr (bonded.map .str)) escrowId
        [some a, some b] = .ok pick ∧
      ((truthyKey pick).isSome = true ↔ ∃ k ∈ pool, k ≠ a ∧ k ≠ b) := by
  have hkeys : ∀ k ∈ bonded, isLowerHex 64 k = true := fun k hk => hpool k (hbonded hk)
  obtain ⟨preferred, hpreferred, hsome⟩ := pickArbiterFromPool_hex hkeys ha hb escrowId
  obtain ⟨legacy, hlegacy, hlegacySome⟩ := pickArbiterFromPool_hex hpool ha hb escrowId
  have hall : filterByKey true pool (bonded.map .str) = .ok bonded := by
    rw [filterByKey_hex true _ hkeys, List.filter_eq_self.mpr]
    intro k hk
    simpa using hbonded hk
  unfold pickPreferredArbiter
  simp only [JsValue.items, JsValue.orElse, bind, Except.bind, loweredKeys_hex hpool, hall,
    List.isEmpty_iff]
  split_ifs with hempty
  · exact ⟨legacy, hlegacy, hlegacySome⟩
  simp only [hpreferred]
  cases htruthy : truthyKey preferred with
  | none => exact ⟨legacy, hlegacy, hlegacySome⟩
  | some pk =>
    refine ⟨some pk, rfl, ?_⟩
    rw [truthyKey_some (truthyKey_eq_some htruthy).2]
    rw [htruthy] at hsome
    obtain ⟨k, hk, hne⟩ := hsome.mp rfl
    exact ⟨fun _ => ⟨k, hbonded hk, hne⟩, fun _ => rfl⟩

/-! ### The gate on a share -/

def sharePayload (parent : CircleView) (circle : CircleRound) (now : JsNumber) (feePubkey : String)
    (policy : ChamaPolicy) (seller : String) : CreatePayload where
  description := parent.description
  category := "chama-share"
  chamaPolicy := .known policy
  parent := some parent.id
  sellerPubkey := some seller
  amountMsats := circle.shareMsats
  mintUrl := parent.mintUrl
  community := parent.community
  fed := parent.fed
  fedPrefix := parent.fedPrefix
  platformFeeBps := 0
  platformFeePubkey := feePubkey
  arbiterFeeMsats := .num 0
  communityArbiters := parent.communityArbiters
  bondedArbiters := parent.bondedArbiters
  expirySeconds := circle.roundEndSec - now
  createdAt := now

def IsCollection (circle : CircleRound) : Prop := circle.pot = .rotationV2 ∧ 2 ≤ circle.roundIndex

instance (circle : CircleRound) : Decidable (IsCollection circle) :=
  inferInstanceAs (Decidable (_ ∧ _))

structure TakesShares (circle : CircleRound) (now : JsNumber) : Prop where
  stamped : now.isSafeInteger = true
  opened : ¬ now < circle.createdAt
  filling : ¬ circle.fillDeadlineSec ≤ now

/-- What the gate asks of who sits in a share. -/
structure SeatsShare (parent : CircleView) (pubkey seller : String) : Prop where
  member : isLowerHex 64 pubkey = true
  witness : isLowerHex 64 seller = true
  distinct : pubkey ≠ seller
  arbiter : ∃ k ∈ poolKeys parent.communityArbiters, k ≠ pubkey ∧ k ≠ seller

def sellerProblem (host : Host) (p : CreatePayload) (policy : ChamaPolicy) (seller pubkey : String)
    (circle : CircleRound) (now : JsNumber) (witness : Option ShareView)
    (cycle : Option ChamaCycleContext) : Option String :=
  if policy = .shareV2 then rotationShareError host p pubkey circle cycle
  else if seller ≠ circle.creatorPubkey then ringShareError host seller now circle witness
  else none

variable {parent : CircleView} {circle : CircleRound} {now : JsNumber}
  {feePubkey seller pubkey : String}
  {policy : ChamaPolicy}

theorem TakesShares.expiry (h : TakesShares circle now) (hvalid : ValidRound circle) :
    now + (circle.roundEndSec - now) = circle.roundEndSec := by
  obtain ⟨created, fill, last, htimes⟩ := hvalid.times
  obtain ⟨t, ht, rfl⟩ := JsNumber.isSafeInteger_iff.mp h.stamped
  have hopened := h.opened
  have hfilling := h.filling
  rw [htimes.createdAt, JsNumber.intCast_lt] at hopened
  rw [htimes.fillDeadline, JsNumber.intCast_le] at hfilling
  have hcloses := htimes.closes
  have hbound := htimes.bound
  have hexact := htimes.exact
  have hm : 1209600 < JsNumber.maxExact := by norm_num [JsNumber.maxExact]
  rw [htimes.roundEnd, JsNumber.sub_intCast (by omega), JsNumber.add_intCast (by omega)]
  congr 2
  omega

theorem share_bare (hparent : LawfulCircle parent) (hnow : now.isSafeInteger = true) :
    Bare (sharePayload parent circle now feePubkey policy seller) now := by
  refine ⟨rfl, hparent.pools, ⟨rfl, hnow⟩, rfl, fun check hcheck => ?_⟩
  simp only [forbiddenChamaFields, List.mem_cons, List.not_mem_nil, or_false] at hcheck
  rcases hcheck with rfl | rfl | rfl | rfl | rfl | rfl | rfl | rfl | rfl | rfl | rfl <;> rfl

theorem chamaCreateError_unstamped {p : CreatePayload} (hplain : isPlainCreate p = false)
    (hnow : now.isSafeInteger = false) (id : String) (parent : Option CircleView)
    (witness : Option ShareView) (cycle : Option ChamaCycleContext) (sim : Bool) :
    chamaCreateError host p id pubkey now parent witness cycle sim ≠ .ok none := by
  unfold chamaCreateError
  rw [hplain, if_neg Bool.false_ne_true]
  split
  · simp
  · rename_i hpasses
    rw [firstProblem_eq_none] at hpasses
    have := hpasses (p.createdAt ≠ now || !now.isSafeInteger, "CREATE timestamp mismatch") (by simp)
    simp [hnow] at this

theorem arbiterChecks_iff (hparent : LawfulCircle parent) (hmember : isLowerHex 64 pubkey = true)
    (hwitness : isLowerHex 64 seller = true) (id : String) :
    ((do
      let arbiter ← pickPreferredArbiter (parent.communityArbiters.orElse (.arr []))
        (parent.bondedArbiters.orElse (.arr [])) id [some pubkey, some seller]
      return firstProblem [
        ((truthyKey arbiter).isNone, "Share requires a distinct pool arbiter"),
        ((0 : JsNumber) ≠ 0 || !((JsValue.num 0).orElse (.num 0)).strictEq (.num 0),
          "Shares return the full amount without fees")]) : Except JsError (Option String)) =
        .ok none ↔
      ∃ k ∈ poolKeys parent.communityArbiters, k ≠ pubkey ∧ k ≠ seller := by
  obtain ⟨pool, bonded, hpool, hbonded, hkeys, hsubset⟩ := hparent.pools
  obtain ⟨pick, hpick, hsome⟩ := pickPreferredArbiter_hex hkeys hsubset hmember hwitness id
  rw [hpool, hbonded, poolKeys_texts, ← hsome]
  change (do
    let arbiter ← pickPreferredArbiter (.arr (pool.map .str)) (.arr (bonded.map .str)) id _
    _) = _ ↔ _
  rw [hpick]
  change Except.ok _ = Except.ok none ↔ _
  have hfees : (decide ((0 : JsNumber) ≠ 0) ||
      !((JsValue.num 0).orElse (.num 0)).strictEq (.num 0)) = false := by decide
  rw [Except.ok.injEq, firstProblem_eq_none, hfees]
  simp

theorem shareCreateError_eq_none (hparent : LawfulCircle parent)
    (hcircle : circleFromEscrow parent = some circle) (hstamped : now.isSafeInteger = true)
    (witness : Option ShareView) (cycle : Option ChamaCycleContext) :
    shareCreateError host (sharePayload parent circle now feePubkey policy seller) policy
        (shareEscrowId host parent.id pubkey circle.roundIndex) pubkey now (some parent) witness
        cycle = .ok none ↔
      TakesShares circle now ∧ SeatsShare parent pubkey seller ∧
        (IsCollection circle ↔ policy = .shareV2) ∧
        sellerProblem host (sharePayload parent circle now feePubkey policy seller) policy seller
          pubkey circle now witness cycle = none := by
  have hvalid := hparent.valid _ hcircle
  have hrounds := validateCircleRound_eq_nil.mpr hvalid
  have hpolicies : ((decide (IsCollection circle) && decide (policy ≠ .shareV2)) = false ∧
      (!decide (IsCollection circle) && decide (policy = .shareV2)) = false) ↔
        (IsCollection circle ↔ policy = .shareV2) := by
    by_cases hcollection : IsCollection circle <;> simp [hcollection]
  unfold shareCreateError
  rw [Option.bind_some, hcircle]
  dsimp only
  constructor
  · intro h
    split at h
    · cases h
    rename_i hchecks
    rw [or_eq_none, or_eq_none, firstProblem_eq_none] at hchecks
    simp only [List.forall_mem_cons] at hchecks
    obtain ⟨⟨⟨-, -, hwindow, -, hkeys, hrotation, hplain, -⟩, hseller⟩, -⟩ := hchecks
    simp only [Bool.or_eq_false_iff, decide_eq_false_iff_not, Bool.not_eq_false'] at hwindow hkeys
    obtain ⟨⟨hmember, hwitness⟩, hdistinct⟩ := hkeys
    have harbiter := (arbiterChecks_iff hparent hmember hwitness _).mp h
    exact ⟨⟨hstamped, hwindow.1.1, hwindow.1.2⟩, ⟨hmember, hwitness, hdistinct, harbiter⟩,
      hpolicies.mp ⟨hrotation, hplain⟩, hseller⟩
  · rintro ⟨htakes, hseats, hpolicy, hseller⟩
    obtain ⟨hrotation, hplain⟩ := hpolicies.mpr hpolicy
    split
    · rename_i problem hproblem
      refine absurd (hproblem.symm.trans (?_ : _ = none)) (by simp)
      rw [or_eq_none, or_eq_none, firstProblem_eq_none, firstProblem_eq_none]
      simp only [List.forall_mem_cons]
      refine ⟨⟨⟨?_, ?_, ?_, ?_, ?_, hrotation, hplain, by simp⟩, hseller⟩, ?_, ?_, by simp⟩
      · simp [hrounds, sharePayload]
      · simp [sharePayload]
      · have hexpiry := htakes.expiry hvalid
        simp [sharePayload, hexpiry, htakes.opened, htakes.filling]
      · simp
      · simp [sharePayload, hseats.member, hseats.witness, hseats.distinct]
      · simp [sharePayload]
      · simp [sharePayload]
    · exact (arbiterChecks_iff hparent hseats.member hseats.witness _).mpr hseats.arbiter

theorem share_accepted_iff (hparent : LawfulCircle parent)
    (hcircle : circleFromEscrow parent = some circle) (witness : Option ShareView)
    (cycle : Option ChamaCycleContext) (sim : Bool) :
    chamaCreateError host (sharePayload parent circle now feePubkey policy seller)
        (shareEscrowId host parent.id pubkey circle.roundIndex) pubkey now (some parent) witness
        cycle sim = .ok none ↔
      TakesShares circle now ∧ SeatsShare parent pubkey seller ∧
        (IsCollection circle ↔ policy = .shareV2) ∧
        sellerProblem host (sharePayload parent circle now feePubkey policy seller) policy seller
          pubkey circle now witness cycle = none := by
  cases hstamped : now.isSafeInteger with
  | false =>
    refine iff_of_false (chamaCreateError_unstamped rfl hstamped _ _ _ _ _) fun h => ?_
    rw [h.1.stamped] at hstamped
    cases hstamped
  | true =>
    rw [chamaCreateError_share (share_bare hparent hstamped) rfl rfl rfl]
    exact shareCreateError_eq_none hparent hcircle hstamped witness cycle

/-! ### Sealed circles -/

/-- A share sits in its circle: its member holds the buyer seat, its id is that of the member, and
its policy is that of the round. -/
structure SitsIn (host : Host) (e : EscrowState) (circle : CircleRound) : Prop where
  member : ∃ m, e.participants.buyer = some m ∧ isLowerHex 64 m = true ∧
    e.id = shareEscrowId host circle.circleId m circle.roundIndex
  policy : IsCollection circle ↔ e.chamaPolicy = some .shareV2

/-- A sealed circle and a set of its escrows: its rounds, those after the first under the ids of the
chain, and the shares of their members. -/
structure SealedCircle (host : Host) (escrows : List EscrowState) (cycle : ChamaCycleContext)
    (rot : Rotation) : Prop extends LawfulCycle cycle where
  derived : rotationFromCycle host cycle none = .ok rot
  chained : ∀ c ∈ cycle.circles, ∀ circle, circleFromEscrow c = some circle →
    isLowerHex 64 circle.creatorPubkey = true ∧
      (IsCollection circle → c.id = roundCircleId host rot.round1Id circle.roundIndex)
  views : cycle.shares = escrows.map EscrowState.shareView
  ids : (escrows.map fun e => e.id).Nodup
  seats : ∀ e ∈ escrows, e.chamaPolicy.isSome = true → ∀ c ∈ cycle.circles, e.parent = some c.id →
    ∀ circle, circleFromEscrow c = some circle → SitsIn host e circle

variable {shares : List ShareView}

theorem Anchored.member_hex {circles : List CircleView}
    {proves : Option (String × JsNumber)} {rot : Rotation}
    (h : Anchored host shares circles proves rot) (hshares : ∀ e ∈ shares, LawfulShare e)
    {m : String} (hm : m ∈ rot.order) : isLowerHex 64 m = true := by
  obtain ⟨state, -, -, -, horder⟩ := h.anchor
  rw [horder] at hm
  obtain ⟨standing, hstanding, rfl⟩ := mem_rotationOrder hm
  obtain ⟨e, he, hshare⟩ := mem_commitmentLocks hstanding
  unfold shareStanding at hshare
  split at hshare
  · rename_i at_ member hlock hbuyer
    obtain rfl := Option.some.inj hshare
    have hmember := hshares e he member hbuyer
    change isLowerHex 64 (toLowerCase member) = true
    rw [toLowerCase_of_isLowerHex hmember]
    exact hmember
  · cases hshare

theorem collectorsFrom_subset {rot : Rotation} (fuel r : ℕ)
    (collected : List String) : collectorsFrom host rot shares fuel r collected ⊆ rot.order := by
  induction fuel generalizing r collected with
  | zero => exact List.nil_subset _
  | succ fuel ih =>
    unfold collectorsFrom
    dsimp only
    split_ifs with hlast
    · exact List.nil_subset _
    · exact List.cons_subset.mpr ⟨hlast.1, List.nil_subset _⟩
    · split
      · exact List.nil_subset _
      · rename_i m hm
        have hrace := List.mem_of_find?_eq_some hm
        unfold raceOf at hrace
        have hmember := (List.mem_filter.mp hrace).2
        exact List.cons_subset.mpr ⟨by simpa using hmember, ih _ _⟩

theorem mem_order_of_collector {rot : Rotation} {roundIndex : JsNumber}
    {collector : String} (h : collectorForRound host rot shares roundIndex = some collector) :
    collector ∈ rot.order := by
  unfold collectorForRound at h
  split at h
  · cases h
  · split_ifs at h
    exact collectorsFrom_subset _ _ _ (List.mem_of_getElem? h)

theorem circleId_eq (h : circleFromEscrow parent = some circle) : circle.circleId = parent.id := by
  unfold circleFromEscrow at h
  split_ifs at h
  obtain ⟨terms, -, rfl⟩ := Option.map_eq_some_iff.mp h
  rfl

/-! ### Shares of collection rounds -/

variable {escrows : List EscrowState} {cycle : ChamaCycleContext} {rot : Rotation}
  {p : CreatePayload}

variable {ring : Option RingSeat}

theorem shareCreatePayload_ok (hparent : LawfulCircle parent)
    (hcircle : circleFromEscrow parent = some circle)
    (h : shareCreatePayload parent now feePubkey ring = .ok p) :
    ∃ seller, shareWitness circle parent.id now ring = .ok seller ∧
      p = sharePayload parent circle now feePubkey .shareV1 seller := by
  obtain ⟨pool, bonded, hpool, hbonded, -, -⟩ := hparent.pools
  have hrounds := validateCircleRound_eq_nil.mpr (hparent.valid _ hcircle)
  unfold shareCreatePayload at h
  rw [hcircle, Option.filter_some, if_pos (by rw [hrounds]; rfl), hpool, hbonded] at h
  simp only [bind_eq_ok, pure_eq_ok] at h
  obtain ⟨seller, hseller, members, hmembers, bondedMembers, hbondedMembers, rfl⟩ := h
  refine ⟨seller, hseller, ?_⟩
  obtain rfl := Except.ok.inj hmembers
  obtain rfl := Except.ok.inj hbondedMembers
  unfold sharePayload
  rw [hpool, hbonded]

theorem rotationShareCreatePayload_ok (hparent : LawfulCircle parent)
    (hcircle : circleFromEscrow parent = some circle)
    (hrot : rotationFromCycle host cycle none = .ok rot)
    (h : rotationShareCreatePayload host parent now feePubkey pubkey cycle = .ok p) :
    IsCollection circle ∧ ∃ collector,
      collectorForRound host rot cycle.shares circle.roundIndex = some collector ∧
      toLowerCase pubkey ≠ collector ∧ toLowerCase pubkey ∈ rot.order ∧
      p = sharePayload parent circle now feePubkey .shareV2 collector := by
  unfold rotationShareCreatePayload at h
  rw [hcircle, Option.filter_some] at h
  split_ifs at h with hround
  simp only [Bool.and_eq_true, decide_eq_true_eq, Bool.not_eq_true', decide_eq_false_iff_not]
    at hround
  have hcollection : IsCollection circle := by
    obtain ⟨n, -, -, hindex⟩ := (hparent.valid _ hcircle).isRound
    refine ⟨hround.1, ?_⟩
    have hlate := hround.2
    rw [hindex, two_eq_fin, JsNumber.intCast_lt] at hlate
    rw [hindex, two_eq_fin, JsNumber.intCast_le]
    omega
  dsimp only at h
  rw [hrot] at h
  dsimp only at h
  split at h
  · cases h
  rename_i collector hcollector
  split_ifs at h with hself hmember
  simp only [bind_eq_ok, pure_eq_ok] at h
  obtain ⟨payload, hpayload, rfl⟩ := h
  obtain ⟨seller, -, rfl⟩ := shareCreatePayload_ok hparent hcircle hpayload
  exact ⟨hcollection, collector, hcollector, hself, hmember, rfl⟩

theorem rotationShare_accepted_iff (hsealed : SealedCircle host escrows cycle rot)
    (hparent : parent ∈ cycle.circles) (hcircle : circleFromEscrow parent = some circle)
    (hwrites : rotationShareCreatePayload host parent now feePubkey pubkey cycle = .ok p)
    (witness : Option ShareView) (sim : Bool) :
    chamaCreateError host p (shareEscrowId host parent.id pubkey circle.roundIndex) pubkey now
        (some parent) witness (some cycle) sim = .ok none ↔
      TakesShares circle now ∧ isLowerHex 64 pubkey = true ∧
        ∃ k ∈ poolKeys parent.communityArbiters, k ≠ pubkey ∧ p.sellerPubkey ≠ some k := by
  have hlawful := hsealed.circles parent hparent
  obtain ⟨hcollection, collector, hcollector, hself, hmember, rfl⟩ :=
    rotationShareCreatePayload_ok hlawful hcircle hsealed.derived hwrites
  have hcollectorHex : isLowerHex 64 collector = true :=
    (rotationFrom_ok hsealed.derived).member_hex hsealed.shares (mem_order_of_collector hcollector)
  have hid := (hsealed.chained parent hparent circle hcircle).2 hcollection
  have hproves := rotationFromCycle_proves hsealed.derived circle.roundIndex
  rw [← hid, ← circleId_eq hcircle] at hproves
  have hseller : sellerProblem host (sharePayload parent circle now feePubkey .shareV2 collector)
      .shareV2 collector pubkey circle now witness (some cycle) = none := by
    unfold sellerProblem
    rw [if_pos rfl]
    unfold rotationShareError
    dsimp only
    rw [hproves]
    dsimp only
    rw [firstProblem_eq_none, circleId_eq hcircle, hid, hcollector]
    simp [sharePayload, hmember]
  rw [share_accepted_iff hlawful hcircle]
  constructor
  · rintro ⟨htakes, hseats, -, -⟩
    obtain ⟨k, hk, hkMember, hkCollector⟩ := hseats.arbiter
    refine ⟨htakes, hseats.member, k, hk, hkMember, ?_⟩
    intro heq
    exact hkCollector (Option.some.inj heq).symm
  · rintro ⟨htakes, hpubkey, k, hk, hkMember, hkCollector⟩
    refine ⟨htakes, ⟨hpubkey, hcollectorHex, ?_, k, hk, hkMember, ?_⟩, by simp [hcollection],
      hseller⟩
    · rwa [toLowerCase_of_isLowerHex hpubkey] at hself
    · rintro rfl
      exact hkCollector rfl

/-! ### Shares of other rounds -/

def RosterRing (escrows : List EscrowState) (pubkey parentId : String) (ring : Option RingSeat) :
    Prop :=
  ring = none ∨ ∃ pendingVote enabled,
    ring = some ⟨pubkey, sharesForCircle pendingVote escrows (some parentId), enabled⟩

theorem mem_sharesForCircle {pendingVote : EscrowState → Bool} {parentId : String}
    (hid : parentId ≠ "") {l : CircleShareLock}
    (h : l ∈ sharesForCircle pendingVote escrows (some parentId)) :
    ∃ e ∈ escrows, e.chamaPolicy.isSome = true ∧ e.parent = some parentId ∧
      l.memberPubkey = e.participants.buyer.getD "" ∧
      l.lockedAtSec = e.lockEvent?.map ParsedEscrowEvent.timestamp := by
  unfold sharesForCircle at h
  obtain ⟨e, he, rfl⟩ := List.mem_map.mp h
  obtain ⟨he, hshare⟩ := List.mem_filter.mp ((firstByKey_sublist _ _ _).subset he)
  rw [truthyKey_some hid] at hshare
  simp only [Bool.and_eq_true, Option.all_some, decide_eq_true_eq] at hshare
  exact ⟨e, he, hshare.1.1, hshare.2, rfl, rfl⟩

theorem latestCandidate_mem {candidates : List CircleShareLock} {l : CircleShareLock}
    (h : latestCandidate candidates = some l) : l ∈ candidates := by
  unfold latestCandidate at h
  exact (List.mem_insertionSort _).mp (List.mem_of_head? h)

theorem shareWitness_ok (hid : parent.id ≠ "") (hring : RosterRing escrows pubkey parent.id ring)
    (h : shareWitness circle parent.id now ring = .ok seller) :
    seller = circle.creatorPubkey ∨
      ∃ e ∈ escrows, e.chamaPolicy.isSome = true ∧ e.parent = some parent.id ∧
        seller = e.participants.buyer.getD "" ∧
        ∃ lockedAt, e.lockEvent?.map ParsedEscrowEvent.timestamp = some lockedAt ∧
          lockedAt ≤ now := by
  unfold shareWitness at h
  split at h
  · exact Or.inl (Except.ok.inj h).symm
  rename_i seat hseat
  obtain ⟨hseat, -⟩ := Option.filter_eq_some_iff.mp hseat
  split at h
  · rename_i latest hlatest
    right
    obtain rfl := Except.ok.inj h
    rcases hring with rfl | ⟨pendingVote, enabled, rfl⟩
    · cases hseat
    obtain rfl := Option.some.inj hseat
    have hmem := latestCandidate_mem hlatest
    unfold ringCandidates at hmem
    obtain ⟨hroster, hcandidate⟩ := List.mem_filter.mp hmem
    obtain ⟨e, he, hpolicy, hparent, hmember, hlock⟩ := mem_sharesForCircle hid hroster
    simp only [decide_eq_true_eq] at hcandidate
    obtain ⟨lockedAt, hlockedAt, hbefore⟩ := Option.any_eq_true _ _ |>.mp hcandidate.2.2.1
    refine ⟨e, he, hpolicy, hparent, hmember, lockedAt, ?_, by simpa using hbefore⟩
    rw [← hlock]
    exact hlockedAt
  · split_ifs at h
    exact Or.inl (Except.ok.inj h).symm

variable {e : EscrowState}

theorem find?_shareView (hids : (escrows.map fun e => e.id).Nodup) (he : e ∈ escrows) :
    (escrows.map EscrowState.shareView).find? (fun view => view.id = e.id) = some e.shareView := by
  induction escrows with
  | nil => cases he
  | cons first rest ih =>
    rw [List.map_cons, List.nodup_cons] at hids
    rw [List.map_cons, List.find?_cons]
    rcases List.mem_cons.mp he with rfl | hrest
    · simp [EscrowState.shareView]
    · have hne : first.id ≠ e.id := fun heq =>
        hids.1 (List.mem_map.mpr ⟨e, hrest, heq.symm⟩)
      have hfirst : decide (first.shareView.id = e.id) = false := decide_eq_false hne
      rw [hfirst]
      exact ih hids.2 hrest

theorem ringShareError_written (hsealed : SealedCircle host escrows cycle rot)
    (hparent : parent ∈ cycle.circles) (hcircle : circleFromEscrow parent = some circle)
    (hplain : ¬ IsCollection circle) (he : e ∈ escrows)
    (hpolicy : e.chamaPolicy.isSome = true) (hchild : e.parent = some parent.id)
    {lockedAt : JsNumber} (hlock : e.lockEvent?.map ParsedEscrowEvent.timestamp = some lockedAt)
    (hbefore : lockedAt ≤ now) :
    isLowerHex 64 (e.participants.buyer.getD "") = true ∧
      ringShareError host (e.participants.buyer.getD "") now circle
        (cycle.shares.find? fun view =>
          view.id = shareEscrowId host parent.id (e.participants.buyer.getD "") circle.roundIndex) =
        none := by
  obtain ⟨⟨m, hbuyer, hmember, hid⟩, hround⟩ :=
      hsealed.seats e he hpolicy parent hparent hchild circle
    hcircle
  rw [hbuyer, Option.getD_some]
  refine ⟨hmember, ?_⟩
  have hfound := find?_shareView hsealed.ids he
  have hpolicyV1 : e.chamaPolicy = some .shareV1 := by
    obtain ⟨policy, heq⟩ := Option.isSome_iff_exists.mp hpolicy
    cases policy with
    | shareV1 => exact heq
    | shareV2 => exact absurd (hround.mpr heq) hplain
  have hnotBefore : ¬ now < lockedAt := fun hlt => JsNumber.not_lt_of_le hbefore hlt
  rw [circleId_eq hcircle] at hid
  rw [← hsealed.views, hid] at hfound
  unfold ringShareError
  rw [hfound]
  dsimp only
  rw [firstProblem_eq_none, circleId_eq hcircle]
  simp [EscrowState.shareView, hid, hpolicyV1, hchild, hbuyer, hlock, hnotBefore]

theorem seatShare_accepted_iff (hsealed : SealedCircle host escrows cycle rot)
    (hparent : parent ∈ cycle.circles) (hcircle : circleFromEscrow parent = some circle)
    (hring : RosterRing escrows pubkey parent.id ring)
    (hwrites : shareCreatePayload parent now feePubkey ring = .ok p) (sim : Bool) :
    chamaCreateError host p (shareEscrowId host parent.id pubkey circle.roundIndex) pubkey now
        (some parent) (cycle.shares.find? fun view =>
          view.id = shareEscrowId host parent.id (p.sellerPubkey.getD "") circle.roundIndex)
        (some cycle) sim = .ok none ↔
      ¬ IsCollection circle ∧ TakesShares circle now ∧ isLowerHex 64 pubkey = true ∧
        p.sellerPubkey ≠ some pubkey ∧
        ∃ k ∈ poolKeys parent.communityArbiters, k ≠ pubkey ∧ p.sellerPubkey ≠ some k := by
  have hlawful := hsealed.circles parent hparent
  obtain ⟨seller, hseller, rfl⟩ := shareCreatePayload_ok hlawful hcircle hwrites
  have hcreator := (hsealed.chained parent hparent circle hcircle).1
  rw [share_accepted_iff hlawful hcircle]
  change _ ↔ ¬ IsCollection circle ∧ TakesShares circle now ∧ isLowerHex 64 pubkey = true ∧
    some seller ≠ some pubkey ∧ ∃ k ∈ poolKeys parent.communityArbiters, k ≠ pubkey ∧
      some seller ≠ some k
  constructor
  · rintro ⟨htakes, hseats, hpolicy, -⟩
    have hplain : ¬ IsCollection circle := fun hcollection => by
      cases hpolicy.mp hcollection
    obtain ⟨k, hk, hkMember, hkSeller⟩ := hseats.arbiter
    exact ⟨hplain, htakes, hseats.member, fun heq => hseats.distinct (Option.some.inj heq).symm,
      k, hk, hkMember, fun heq => hkSeller (Option.some.inj heq).symm⟩
  · rintro ⟨hplain, htakes, hpubkey, hdistinct, k, hk, hkMember, hkSeller⟩
    have hwitness : isLowerHex 64 seller = true ∧
        sellerProblem host (sharePayload parent circle now feePubkey .shareV1 seller) .shareV1 seller
          pubkey circle now (cycle.shares.find? fun view =>
            view.id = shareEscrowId host parent.id seller circle.roundIndex) (some cycle) =
                none := by
      unfold sellerProblem
      rw [if_neg (by decide)]
      rcases shareWitness_ok hlawful.id_ne hring hseller with
        rfl | ⟨e, he, hpolicy, hchild, rfl, lockedAt, hlock, hbefore⟩
      · exact ⟨hcreator, if_neg (not_not.mpr rfl)⟩
      · obtain ⟨hhex, hringShare⟩ := ringShareError_written hsealed hparent hcircle hplain he hpolicy
          hchild hlock hbefore
        refine ⟨hhex, ?_⟩
        split_ifs
        · exact hringShare
        · rfl
    refine ⟨htakes, ⟨hpubkey, hwitness.1, ?_, k, hk, hkMember, ?_⟩, by simp [hplain], hwitness.2⟩
    · rintro rfl
      exact hdistinct rfl
    · rintro rfl
      exact hkSeller rfl

/-! ### The three writers -/

/-- The text whose digest is the id of a member's share in the first round of `sm_circle`. -/
def sealedText (member : Char) : String :=
  "[\"chama-share-v1\",\"sm_circle\",\"" ++ hexKey member ++ "\",1]"

/-- The ids of the shares of three members. -/
def sealedId : Char → String
  | 'b' => "5869bcad3f4916796025ad98162e57fb6ef8d5ad6da4fed9da6423569dfa258a"
  | 'c' => "4e38b4cc5cc5aa6dd10e101a5ba145a22579755c27a0591eb5cb46e9812daeac"
  | _ => "0f4446f0dae7439801144dbac8324405bd1c62b5ae7f004d38e5a0a50796eb0d"

def sealedHost : Host :=
  { silentHost with
    sha256Hex := fun text =>
      if text = "[\"chama-round-v2\",\"sm_circle\",2]" then sampleRoundId
      else if text = sealedText 'b' then sealedId 'b'
      else if text = sealedText 'c' then sealedId 'c'
      else sealedId 'd' }

theorem sealed_texts : isLowerHex 64 sampleRoundId = true ∧
    (['b', 'c', 'd'].all fun member => isLowerHex 64 (sealedId member) &&
      sealedId member = sealedHost.sha256Hex (sealedText member)) = true ∧
    sampleRoundId = roundCircleId sealedHost "sm_circle" 2 ∧
    jsonText "chama-share-v1" = "\"chama-share-v1\"" ∧ jsonText "sm_circle" = "\"sm_circle\"" ∧
    (1 : JsNumber).toText = "1" := by
  refine ⟨?_, ?_, ?_, ?_, ?_, ?_⟩
  all_goals decide +kernel

theorem sealedId_digest {member : Char} (h : member ∈ ['b', 'c', 'd']) :
    isLowerHex 64 (sealedId member) = true ∧
      sealedId member = sealedHost.sha256Hex (sealedText member) := by
  have hall := List.all_eq_true.mp sealed_texts.2.1 member h
  rwa [Bool.and_eq_true, decide_eq_true_eq] at hall

theorem sealedHost_digests : HexDigests sealedHost := by
  have hround := sealed_texts.1
  intro text
  unfold sealedHost
  dsimp only
  split_ifs
  · exact hround
  · exact (sealedId_digest (by simp : 'b' ∈ ['b', 'c', 'd'])).1
  · exact (sealedId_digest (by simp : 'c' ∈ ['b', 'c', 'd'])).1
  · exact (sealedId_digest (by simp : 'd' ∈ ['b', 'c', 'd'])).1

theorem isLowerHex_hexKey {c : Char} (h : (c.isDigit || ('a' ≤ c && c ≤ 'f')) = true) :
    isLowerHex 64 (hexKey c) = true := by
  unfold isLowerHex hexKey
  rw [String.toList_ofList, List.length_replicate, Bool.and_eq_true, List.all_eq_true]
  refine ⟨rfl, fun x hx => ?_⟩
  rw [List.eq_of_mem_replicate hx]
  exact h

theorem sealedText_eq {c : Char} (h : (c.isDigit || ('a' ≤ c && c ≤ 'f')) = true) :
    shareEscrowId sealedHost "sm_circle" (hexKey c) 1 = sealedHost.sha256Hex (sealedText c) := by
  have hkey := isLowerHex_hexKey h
  obtain ⟨-, -, -, htag, hcircle, hindex⟩ := sealed_texts
  unfold shareEscrowId sealedText
  rw [toLowerCase_of_isLowerHex hkey, jsonText_hex hkey, htag, hcircle, hindex]
  refine congrArg sealedHost.sha256Hex (String.toList_inj.mp ?_)
  simp

theorem sealedId_eq : ∀ member ∈ ['b', 'c', 'd'],
    sealedId member = shareEscrowId sealedHost "sm_circle" (hexKey member) 1 := by
  intro member hmember
  have hhex : (member.isDigit || ('a' ≤ member && member ≤ 'f')) = true := by
    simp only [List.mem_cons, List.not_mem_nil, or_false] at hmember
    rcases hmember with rfl | rfl | rfl <;> rfl
  rw [sealedText_eq hhex]
  exact (sealedId_digest hmember).2

def sealedShare (member : Char) (time : ℕ) : EscrowState where
  id := sealedId member
  description := "circle"
  category := "chama-share"
  chamaPolicy := some .shareV1
  chamaCircle := (sampleRound "sm_circle" 1800000000 1 none).chamaCircle
  paymentMethods := none
  items := none
  community := none
  tranche := .undefined
  escrowMode := .ecash
  onchainNetwork := .mainnet
  onchainAtomicRelease := none
  settlementPolicy := .undefined
  sliceCount := none
  mintUrl := "https://mint"
  stock := none
  parent := some "sm_circle"
  claimedQuantity := none
  trancheChild := none
  initiator := ⟨hexKey member, .buyer⟩
  createdAt := .ofInt time
  status := .locked
  amountMsats := 1000000
  escrowKeys := ⟨none, none, none⟩
  onchainFundingTerms := none
  onchainRefundClaimed := false
  onchainPayoutTxid := none
  onchainPayoutAddress := none
  onchainPayoutSats := none
  settlementStalled := none
  tranchePlan := none
  childKeys := ⟨none, none, none⟩
  participants := ⟨some (hexKey member), some (hexKey 'a'), some (hexKey 'f')⟩
  joinHolds := ⟨none, none, none⟩
  communityArbiters := .arr [.str (hexKey 'f')]
  bondedArbiters := .arr []
  subscription := none
  votes := .empty
  resolvedOutcome := none
  resolvedMajority := none
  actingArbiter := none
  fees := ⟨0, hexKey 'e', .num 0, 0⟩
  lock := {}
  claim := {}
  listingExpiresAt := none
  tradeTimeoutSeconds := none
  expiresAt := 1800007200
  resolvedAt := none
  completedAt := none
  cancelledAt := none
  eventChain := [sampleEvent '1' member time sampleLock.payload]
  chatMessages := []
  premiumNotes := []
  settlements := []

/-- The shares of the three members; `b` was the fastest. -/
def sealedShares : List EscrowState :=
  [sealedShare 'b' 1800000100, sealedShare 'c' 1800000200, sealedShare 'd' 1800000300]

def sealedRound : CircleView :=
  { sampleRound sampleRoundId 1800007200 2 (some "sm_circle") with
    chamaCircle := (sampleRound sampleRoundId 1800007200 2 (some "sm_circle")).chamaCircle.map
      fun terms => { terms with seatThreshold := 2, seatCap := some 2 } }

/-- The circle after its second round opened. -/
def sealedCycle : ChamaCycleContext where
  circles := [sampleRound "sm_circle" 1800000000 1 none, sealedRound]
  shares := sealedShares.map EscrowState.shareView

theorem sealedCycle_evaluated :
    (rotationFromCycle sealedHost sealedCycle none).toOption.any (fun rot =>
      rot.round1Id = "sm_circle" && rot.order = ['b', 'c', 'd'].map hexKey) = true ∧
    (∀ c ∈ sealedCycle.circles, ∀ circle ∈ circleFromEscrow c, validateCircleRound circle = []) ∧
    (∀ c ∈ sealedCycle.circles, c.id ≠ "") ∧ (sealedShares.map fun e => e.id).Nodup := by
  refine ⟨?_, ?_, ?_, ?_⟩
  all_goals decide +kernel

theorem sealedCycle_rotation : ∃ rot, rotationFromCycle sealedHost sealedCycle none = .ok rot ∧
    rot.round1Id = "sm_circle" ∧ rot.order = ['b', 'c', 'd'].map hexKey := by
  obtain ⟨rot, hrot, h⟩ := exists_ok_of_any sealedCycle_evaluated.1
  simp only [Bool.and_eq_true, decide_eq_true_eq] at h
  exact ⟨rot, hrot, h⟩

theorem sealedCycle_circles : ∀ c ∈ sealedCycle.circles, LawfulCircle c := by
  have hpool : ∀ k ∈ [hexKey 'f'], isLowerHex 64 k = true := by
    intro k hk
    rw [List.mem_singleton.mp hk]
    exact isLowerHex_hexKey (by decide)
  obtain ⟨-, hvalid, hid, -⟩ := sealedCycle_evaluated
  intro c hc
  refine ⟨hid c hc, fun circle hcircle => validateCircleRound_eq_nil.mp (hvalid c hc circle hcircle),
    [hexKey 'f'], [], ?_, ?_, hpool, by simp⟩
  all_goals
    simp only [sealedCycle, List.mem_cons, List.not_mem_nil, or_false] at hc
    rcases hc with rfl | rfl <;> rfl

theorem sealedShares_seated (he : e ∈ sealedShares) :
    ∃ member time, e = sealedShare member time ∧ isLowerHex 64 (hexKey member) = true ∧
      sealedId member = shareEscrowId sealedHost "sm_circle" (hexKey member) 1 := by
  have hid := sealedId_eq
  simp only [List.forall_mem_cons] at hid
  simp only [sealedShares, List.mem_cons, List.not_mem_nil, or_false] at he
  rcases he with rfl | rfl | rfl
  · exact ⟨'b', _, rfl, isLowerHex_hexKey (by decide), hid.1⟩
  · exact ⟨'c', _, rfl, isLowerHex_hexKey (by decide), hid.2.1⟩
  · exact ⟨'d', _, rfl, isLowerHex_hexKey (by decide), hid.2.2.1⟩

theorem sealedCycle_sealed : ∃ rot, SealedCircle sealedHost sealedShares sealedCycle rot ∧
    rot.round1Id = "sm_circle" ∧ rot.order = ['b', 'c', 'd'].map hexKey := by
  obtain ⟨rot, hrot, hround, horder⟩ := sealedCycle_rotation
  refine ⟨rot, {
    circles := sealedCycle_circles
    shares := ?_
    size := by decide
    derived := hrot
    chained := ?_
    views := rfl
    ids := sealedCycle_evaluated.2.2.2
    seats := ?_ }, hround, horder⟩
  · intro view hview
    obtain ⟨e, he, rfl⟩ := List.mem_map.mp hview
    obtain ⟨member, time, rfl, hkey, -⟩ := sealedShares_seated he
    intro m hm
    obtain rfl := Option.some.inj hm
    exact hkey
  · have hid := sealed_texts.2.2.1
    have hcreator : isLowerHex 64 (hexKey 'a') = true := isLowerHex_hexKey (by decide)
    intro c hc circle hcircle
    simp only [sealedCycle, List.mem_cons, List.not_mem_nil, or_false] at hc
    rcases hc with rfl | rfl
    · obtain rfl := Option.some.inj hcircle
      exact ⟨hcreator, fun hcollection => absurd hcollection.2 (by decide)⟩
    · obtain rfl := Option.some.inj hcircle
      refine ⟨hcreator, fun _ => ?_⟩
      rw [hround]
      exact hid
  · intro e he hpolicy c hc hparent circle hcircle
    obtain ⟨member, time, rfl, hkey, hid⟩ := sealedShares_seated he
    have hfirst : sampleRoundId ≠ "sm_circle" := by decide
    simp only [sealedCycle, List.mem_cons, List.not_mem_nil, or_false] at hc
    rcases hc with rfl | rfl
    · obtain rfl := Option.some.inj hcircle
      refine ⟨⟨_, rfl, hkey, hid⟩, fun hcollection => absurd hcollection.2 (by decide), ?_⟩
      rintro ⟨⟩
    · exact absurd (Option.some.inj hparent).symm hfirst

theorem sealed_member {rot : Rotation} (h : rot.order = ['b', 'c', 'd'].map hexKey) :
    toLowerCase (hexKey 'c') ∈ rot.order := by
  rw [toLowerCase_of_isLowerHex (isLowerHex_hexKey (by decide)), h]
  simp

theorem sealedRound_unfilled {rot : Rotation} (h : rot.order = ['b', 'c', 'd'].map hexKey)
    (roundIndex : JsNumber) : ¬ RoundFilled sealedHost rot sealedCycle.shares roundIndex := by
  rintro ⟨collector, -, hfilled⟩
  have hnone : ∀ e ∈ sealedCycle.shares, e.chamaPolicy ≠ some .shareV2 := by
    intro view hview
    obtain ⟨e, he, rfl⟩ := List.mem_map.mp hview
    obtain ⟨member, time, rfl, -, -⟩ := sealedShares_seated he
    rintro ⟨⟩
  have hcollector : ∀ m ∈ rot.order, m = collector := fun m hm =>
    (hfilled m hm).resolve_right fun ⟨e, he, hpolicy, _⟩ => hnone e he hpolicy
  rw [h] at hcollector
  have hb := hcollector (hexKey 'b') (by simp)
  have hc := hcollector (hexKey 'c') (by simp)
  have hsame : 'b' = 'c' := hexKey_injective (hb.trans hc.symm)
  exact absurd hsame (by decide)

def sealedRing : RingSeat where
  buyerPubkey := hexKey 'c'
  locks := sharesForCircle (fun _ => false) sealedShares (some "sm_circle")
  enabled := some true

end ChamaEscrow
