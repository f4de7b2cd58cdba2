import ChamaEscrow.Js.Monotone
import ChamaEscrow.Trade.Lifecycle

/-!
# The dispute clock

Three times are counted from the votes of a trade: the anchor of a dispute, the end of the window
over a one-sided one, and the moment at which a backup may vote.  Votes carry the clocks of their
signers, so an anchor may lie on either side of the deadline.

Each time is an anchor, capped at four hours past the deadline, or such a time plus a window: the
committed grace, at most half of what is left until the deadline.  `window_bounds` says what binary64
arithmetic makes of the half, `graceWindowEnd_le_slack`, `le_graceWindowEnd` and `graceWindowEnd_lt`
what follows for the end of the window.  A longer grace moves every time later or not at all
(`graceWindowEnd_mono`); where the window of one dispute is the start of the next, this needs times
in whole seconds (`wholeEnd_mono`).

`dispute_clock_bounds` is the result, for every state with a deadline after the epoch.
-/

namespace ChamaEscrow

open Js Library

variable {s s' : EscrowState}

/-! ### The grace -/

theorem clampSubstitutionGraceSeconds_bounds (grace : Option JsNumber) :
    ∃ cap : ℤ, clampSubstitutionGraceSeconds grace = .fin cap ∧ 0 ≤ cap ∧ cap ≤ 14400 := by
  have hmax : substitutionGraceMaxSeconds = .fin (14400 : ℤ) :=
    JsNumber.ofInt_eq_fin (n := 14400) (by decide)
  have hdefault : ∃ cap : ℤ, substitutionGraceMaxSeconds = .fin cap ∧ 0 ≤ cap ∧ cap ≤ 14400 :=
    ⟨14400, hmax, by decide, by decide⟩
  unfold clampSubstitutionGraceSeconds
  cases grace with
  | none => exact hdefault
  | some value =>
    dsimp only
    split_ifs with hfinite
    · cases value with
      | fin q =>
        have hnan : (JsNumber.fin q).floor ≠ .nan := JsNumber.ofRat_ne_nan _
        have hzero : (0 : JsNumber) ≤ substitutionGraceMaxSeconds := by decide
        have hmaxNan : substitutionGraceMaxSeconds ≠ .nan := by decide
        rcases JsNumber.le_total_of_ne_nan hmaxNan hnan with hle | hle
        · rw [JsNumber.min_eq_left hle, JsNumber.max_eq_right hzero]
          exact hdefault
        · rw [JsNumber.min_eq_right hle]
          have hzeroNan : (0 : JsNumber) ≠ .nan := JsNumber.ofInt_ne_nan 0
          rcases JsNumber.le_total_of_ne_nan hzeroNan hnan with hpos | hneg
          · rw [JsNumber.max_eq_right hpos]
            obtain ⟨v, hv, hlow, hhigh⟩ := JsNumber.eq_fin_of_between
              (JsNumber.zero_eq_fin ▸ hpos) (hmax ▸ hle)
            have hinteger := JsNumber.isInteger_ofInt (n := ⌊q⌋) (by
              change ((JsNumber.fin q).floor).isFinite = true
              rw [hv]
              rfl)
            change ((JsNumber.fin q).floor).isInteger = true at hinteger
            rw [hv, JsNumber.isInteger, decide_eq_true_eq] at hinteger
            have hnum : (v.num : ℚ) = v := Rat.coe_int_num_of_den_eq_one hinteger
            rw [← hnum] at hlow hhigh
            exact ⟨v.num, by rw [hv, hnum], by exact_mod_cast hlow, by exact_mod_cast hhigh⟩
          · rw [JsNumber.max_eq_left hneg]
            exact ⟨0, by rw [JsNumber.zero_eq_fin, Int.cast_zero], by decide, by decide⟩
      | _ => cases hfinite
    · exact hdefault

theorem clampSubstitutionGraceSeconds_mono {g g' : JsNumber} (hg : g.isFinite = true)
    (hg' : g'.isFinite = true) (h : g ≤ g') :
    clampSubstitutionGraceSeconds (some g) ≤ clampSubstitutionGraceSeconds (some g') ∧
      clampSubstitutionGraceSeconds (some g') ≤ clampSubstitutionGraceSeconds none := by
  constructor
  · simp only [clampSubstitutionGraceSeconds, hg, hg', if_true]
    exact JsNumber.max_mono (by decide) (JsNumber.min_mono (by decide) (JsNumber.floor_mono h))
  · obtain ⟨cap, hcap, -, hle⟩ := clampSubstitutionGraceSeconds_bounds (some g')
    have hmax : clampSubstitutionGraceSeconds none = .fin (14400 : ℤ) :=
      JsNumber.ofInt_eq_fin (n := 14400) (by decide)
    rw [hcap, hmax]
    exact JsNumber.intCast_le.mpr hle

/-! ### The end of a window -/

/-- Four hours past the deadline. -/
def slackEnd (s : EscrowState) : JsNumber := s.expiresAt + substitutionGraceMaxSeconds

theorem slackEnd_eq {e : ℚ} (he : s.expiresAt = .fin e) : slackEnd s = JsNumber.ofRat (e + 14400) := by
  have hmax : substitutionGraceMaxSeconds = .fin 14400 :=
    JsNumber.ofInt_eq_fin (n := 14400) (by decide)
  rw [slackEnd, he, hmax, JsNumber.fin_add_fin]

theorem truthy_of_pos {e : ℚ} (hpos : 0 < e) : (JsValue.num (.fin e)).truthy = true := by
  have hne : JsNumber.fin e ≠ 0 := by
    rw [JsNumber.zero_eq_fin, Ne, JsNumber.fin.injEq]
    exact hpos.ne'
  simp [JsValue.truthy, hne]

variable {cap : ℤ}

theorem graceWindowEnd_fin {e : ℚ} (he : s.expiresAt = .fin e) (hpos : 0 < e)
    (hcap : clampSubstitutionGraceSeconds s.lock.substitutionGraceSeconds = .fin cap) (a : ℚ) :
    graceWindowEnd s (.fin a) = .fin a + JsNumber.window cap (e - a) := by
  have hspan : JsNumber.fin e - JsNumber.fin a = JsNumber.ofRat (e - a) := by
    rw [sub_eq_add_neg]
    rfl
  unfold graceWindowEnd
  dsimp only
  rw [he, if_pos (truthy_of_pos hpos), hcap, hspan]
  rfl

theorem min_fin (hcap : 0 ≤ cap) {n : JsNumber} (hn : .fin 0 ≤ n) :
    ∃ v : ℚ, JsNumber.min (.fin cap) n = .fin v := by
  have hcapNan : JsNumber.fin (cap : ℚ) ≠ .nan := by simp
  obtain ⟨v, hv, -⟩ := JsNumber.eq_fin_of_between
    (JsNumber.le_min (JsNumber.fin_le_fin.mpr (by exact_mod_cast hcap)) hn)
    (JsNumber.min_le_left hcapNan (JsNumber.ne_nan_of_le hn).2)
  exact ⟨v, hv⟩

variable {start : JsNumber}

theorem graceWindowEnd_infinite {e : ℚ} (he : s.expiresAt = .fin e) (hpos : 0 < e)
    (hstart : start = .posInf ∨ start = .negInf) : graceWindowEnd s start = start := by
  obtain ⟨cap, hcap, hcap0, -⟩ :=
    clampSubstitutionGraceSeconds_bounds s.lock.substitutionGraceSeconds
  have hhalf : JsNumber.fin 0 ≤ JsNumber.max 0 ((JsNumber.fin e - start).divBy 2).floor := by
    rw [← JsNumber.zero_eq_fin]
    rcases hstart with rfl | rfl <;> rfl
  obtain ⟨v, hv⟩ := min_fin hcap0 hhalf
  unfold graceWindowEnd
  dsimp only
  rw [he, if_pos (truthy_of_pos hpos), hcap, hv]
  rcases hstart with rfl | rfl <;> rfl

theorem graceWindowEnd_le_slack {e : ℚ} (he : s.expiresAt = .fin e) (hpos : 0 < e)
    (hdouble : start.isDouble = true) (h : start ≤ slackEnd s) :
    graceWindowEnd s start ≤ slackEnd s := by
  obtain ⟨cap, hcap, hbounds⟩ :=
    clampSubstitutionGraceSeconds_bounds s.lock.substitutionGraceSeconds
  cases start with
  | nan => cases h
  | posInf => rwa [graceWindowEnd_infinite he hpos (Or.inl rfl)]
  | negInf => rwa [graceWindowEnd_infinite he hpos (Or.inr rfl)]
  | fin a =>
    obtain ⟨w, hw, -, hshort, hsmall, hlong⟩ := JsNumber.window_bounds hbounds (e - a)
    rw [graceWindowEnd_fin he hpos hcap, hw, JsNumber.fin_add_fin]
    rcases le_or_gt a e with hbefore | hafter
    · have hwindow : w ≤ e - a := by
        rcases le_or_gt (e - a) (3 / 2) with hle | hgt
        · rw [hshort hle]
          linarith
        · rcases lt_or_ge (e - a) 2 with hlt | hge
          · linarith [hsmall hlt]
          · linarith [hlong hge]
      rw [slackEnd_eq he]
      exact JsNumber.ofRat_mono (by linarith)
    · rw [hshort (by linarith), add_zero, JsNumber.isDouble_fin.mp hdouble]
      exact h

theorem le_graceWindowEnd {e : ℚ} (he : s.expiresAt = .fin e) (hpos : 0 < e)
    (hnan : start ≠ .nan) (hdouble : start.isDouble = true) : start ≤ graceWindowEnd s start := by
  obtain ⟨cap, hcap, hbounds⟩ :=
    clampSubstitutionGraceSeconds_bounds s.lock.substitutionGraceSeconds
  cases start with
  | nan => exact absurd rfl hnan
  | posInf =>
    rw [graceWindowEnd_infinite he hpos (Or.inl rfl)]
    rfl
  | negInf =>
    rw [graceWindowEnd_infinite he hpos (Or.inr rfl)]
    rfl
  | fin a =>
    obtain ⟨w, hw, hzero, -⟩ := JsNumber.window_bounds hbounds (e - a)
    rw [graceWindowEnd_fin he hpos hcap, hw]
    exact JsNumber.le_add_fin hnan hdouble hzero

theorem graceWindowEnd_le {e : ℚ} (he : s.expiresAt = .fin e) (hpos : 0 < e)
    (hnan : start ≠ .nan) : graceWindowEnd s start ≤
      start + JsNumber.min (clampSubstitutionGraceSeconds s.lock.substitutionGraceSeconds)
        (JsNumber.max 0 ((s.expiresAt - start).divBy 2)) := by
  obtain ⟨cap, hcap, hcap0, -⟩ :=
    clampSubstitutionGraceSeconds_bounds s.lock.substitutionGraceSeconds
  have hzero : (0 : JsNumber) ≤ 0 := by decide
  have hspanNan : JsNumber.fin e - start ≠ .nan := by
    cases start with
    | fin a => exact JsNumber.ofRat_ne_nan _
    | nan => exact absurd rfl hnan
    | posInf => exact (by decide : JsNumber.negInf ≠ .nan)
    | negInf => exact (by decide : JsNumber.posInf ≠ .nan)
  have hhalfNan : (JsNumber.fin e - start).divBy 2 ≠ .nan :=
    (JsNumber.ne_nan_of_le (JsNumber.divBy_mono (JsNumber.le_refl hspanNan))).1
  have hfloor := JsNumber.max_mono hzero
    (JsNumber.floor_le hhalfNan JsNumber.isDouble_divBy)
  have hfloorNan := JsNumber.floor_le hhalfNan JsNumber.isDouble_divBy
  have hhalf : JsNumber.fin 0 ≤ JsNumber.max 0 ((JsNumber.fin e - start).divBy 2).floor := by
    rw [← JsNumber.zero_eq_fin]
    exact JsNumber.le_max_left (JsNumber.ofInt_ne_nan 0) (JsNumber.ne_nan_of_le hfloorNan).1
  obtain ⟨v, hv⟩ := min_fin hcap0 hhalf
  obtain ⟨v', hv'⟩ := min_fin hcap0 (JsNumber.le_trans hhalf hfloor)
  have hle := JsNumber.min_mono (JsNumber.le_refl (a := .fin (cap : ℚ)) (by simp)) hfloor
  unfold graceWindowEnd
  dsimp only
  rw [he, if_pos (truthy_of_pos hpos), hcap, hv, hv']
  rw [hv, hv', JsNumber.fin_le_fin] at hle
  exact JsNumber.add_le_add_left hnan hle

/-- The numbers from `2^51` on that a double holds are multiples of a half, those from `2^52` on are
whole. -/
theorem grid_of_large {q : ℚ} {k : ℤ} (hq : 2 ^ (52 - k) ≤ q)
    (hdouble : (JsNumber.fin q).isDouble = true) : ∃ n : ℤ, q = n * 2 ^ (-k) := by
  have hpos : 0 < q := (JsNumber.two_zpow_pos _).trans_le hq
  have hround : q = JsNumber.roundPlace q := by
    have heq := JsNumber.isDouble_fin.mp hdouble
    rw [JsNumber.ofRat_eq_clip] at heq
    exact JsNumber.clip_eq_fin heq
  have hlog := (zpow_lt_zpow_iff_right₀ (by norm_num : (1 : ℚ) < 2)).mp
    (hq.trans_lt (JsNumber.log2_spec hpos).2)
  have hplace : -k ≤ JsNumber.lastPlace q := by
    rw [JsNumber.lastPlace, abs_of_pos hpos]
    omega
  exact JsNumber.grid_of_le hplace hround

theorem graceWindowEnd_lt {e a : ℚ} (he : s.expiresAt = .fin e) (hpos : 0 < e)
    (hexact : e < JsNumber.maxExact) (hdouble : (JsNumber.fin e).isDouble = true)
    (hdouble' : (JsNumber.fin a).isDouble = true) (h : a < e) :
    graceWindowEnd s (.fin a) < s.expiresAt := by
  obtain ⟨cap, hcap, hbounds⟩ :=
    clampSubstitutionGraceSeconds_bounds s.lock.substitutionGraceSeconds
  obtain ⟨w, hw, -, hshort, hsmall, hlong⟩ := JsNumber.window_bounds hbounds (e - a)
  rw [graceWindowEnd_fin he hpos hcap, hw, JsNumber.fin_add_fin, he]
  -- It is enough to find a double between the exact sum and the deadline.
  have hbelow {m : ℚ} (hm : JsNumber.ofRat m = .fin m) (hsum : a + w ≤ m) (hlt : m < e) :
      JsNumber.ofRat (a + w) < .fin e :=
    JsNumber.lt_of_le_of_lt (JsNumber.ofRat_le_fin (JsNumber.isDouble_fin.mpr hm) hsum)
      (JsNumber.fin_lt_fin.mpr hlt)
  rcases le_or_gt (e - a) (3 / 2) with hle | hgt
  · exact hbelow (JsNumber.isDouble_fin.mp hdouble') (by rw [hshort hle, add_zero]) h
  rcases le_or_gt 2 (e - a) with hge | hlt
  · -- With two seconds left, the last whole second before the deadline.
    have hceil := Int.ceil_lt_add_one e
    have hle := Int.le_ceil e
    have hwhole : JsNumber.ofRat ((⌈e⌉ - 1 : ℤ) : ℚ) = .fin ((⌈e⌉ - 1 : ℤ) : ℚ) := by
      refine JsNumber.ofInt_eq_fin ?_
      have hlow : 0 < ⌈e⌉ := Int.ceil_pos.mpr hpos
      have hhigh : ⌈e⌉ ≤ JsNumber.maxExact := Int.ceil_le.mpr hexact.le
      omega
    push_cast at hwhole
    exact hbelow hwhole (by linarith [hlong hge]) (by linarith)
  · have hone := hsmall hlt
    rcases le_or_gt e (2 ^ 52) with hmedium | hlarge
    · -- Otherwise the last half second.
      have hceil := Int.ceil_lt_add_one (2 * e)
      have hle := Int.le_ceil (2 * e)
      have hhalf : JsNumber.ofRat ((⌈2 * e⌉ - 1 : ℤ) / 2) = .fin ((⌈2 * e⌉ - 1 : ℤ) / 2) := by
        refine JsNumber.ofRat_half ?_
        have hlow : 0 < ⌈2 * e⌉ := Int.ceil_pos.mpr (by linarith)
        have hhigh : ⌈2 * e⌉ ≤ JsNumber.maxExact := by
          refine Int.ceil_le.mpr ?_
          rw [JsNumber.maxExact]
          push_cast
          linarith
        omega
      push_cast at hhalf
      exact hbelow hhalf (by linarith) (by linarith)
    · -- Doubles this large are whole or a half apart, and no span is between 3/2 and 2.
      obtain ⟨n, hn⟩ := grid_of_large (k := 0) (by norm_num; linarith) hdouble
      obtain ⟨m, hm⟩ := grid_of_large (k := 1) (by norm_num; linarith) hdouble'
      rw [neg_zero, zpow_zero, mul_one] at hn
      rw [zpow_neg_one] at hm
      have hlow : 3 < 2 * n - m := by
        have : (3 : ℚ) < 2 * n - m := by linarith
        exact_mod_cast this
      have hhigh : 2 * n - m < 4 := by
        have : 2 * (n : ℚ) - m < 4 := by linarith
        exact_mod_cast this
      omega

/-! ### Another grace -/

def EscrowState.withGrace (s : EscrowState) (grace : Option JsNumber) : EscrowState :=
  { s with lock := { s.lock with substitutionGraceSeconds := grace } }

variable {g g' : Option JsNumber}

theorem graceWindowEnd_mono {e : ℚ} (he : s.expiresAt = .fin e) (hpos : 0 < e)
    (h : clampSubstitutionGraceSeconds g ≤ clampSubstitutionGraceSeconds g') (hnan : start ≠ .nan) :
    graceWindowEnd (s.withGrace g) start ≤ graceWindowEnd (s.withGrace g') start := by
  have he' (g : Option JsNumber) : (s.withGrace g).expiresAt = .fin e := he
  obtain ⟨cap, hcap, hcaps⟩ := clampSubstitutionGraceSeconds_bounds g
  obtain ⟨cap', hcap', hcaps'⟩ := clampSubstitutionGraceSeconds_bounds g'
  have hinfinite (hstart : start = .posInf ∨ start = .negInf) :
      graceWindowEnd (s.withGrace g) start ≤ graceWindowEnd (s.withGrace g') start := by
    rw [graceWindowEnd_infinite (he' g) hpos hstart, graceWindowEnd_infinite (he' g') hpos hstart]
    exact JsNumber.le_refl hnan
  cases start with
  | nan => exact absurd rfl hnan
  | posInf => exact hinfinite (Or.inl rfl)
  | negInf => exact hinfinite (Or.inr rfl)
  | fin a =>
    rw [graceWindowEnd_fin (he' g) hpos hcap, graceWindowEnd_fin (he' g') hpos hcap']
    have hle : JsNumber.window cap (e - a) ≤ JsNumber.window cap' (e - a) := by
      rw [hcap, hcap'] at h
      exact JsNumber.min_mono h
        (JsNumber.le_refl (JsNumber.ne_nan_of_le (JsNumber.zero_le_halfLife _)).2)
    obtain ⟨w, hw, -⟩ := JsNumber.window_bounds hcaps (e - a)
    obtain ⟨w', hw', -⟩ := JsNumber.window_bounds hcaps' (e - a)
    rw [hw, hw', JsNumber.fin_le_fin] at hle
    rw [hw, hw']
    exact JsNumber.add_le_add_left hnan hle

def wholeEnd (cap e a : ℤ) : ℤ := a + min cap (max 0 ((e - a) / 2))

theorem wholeEnd_bounds {cap e a : ℤ} (hcap : 0 ≤ cap) : a ≤ wholeEnd cap e a ∧
    wholeEnd cap e a ≤ max a e := by
  unfold wholeEnd
  omega

theorem wholeEnd_mono {cap cap' e a : ℤ} (hcap : 0 ≤ cap) (h : cap ≤ cap') :
    wholeEnd cap e (wholeEnd cap e a) ≤ wholeEnd cap' e (wholeEnd cap' e a) := by
  unfold wholeEnd
  omega

theorem graceWindowEnd_whole {e a : ℤ} (he : s.expiresAt = .fin e) (hpos : 0 < e)
    (hsafe : e.natAbs < JsNumber.maxExact) (hsafe' : a.natAbs < JsNumber.maxExact)
    (hcap : clampSubstitutionGraceSeconds s.lock.substitutionGraceSeconds = .fin cap)
    (hcaps : 0 ≤ cap ∧ cap ≤ 14400) :
    graceWindowEnd s (.fin a) = .fin (wholeEnd cap e a : ℤ) ∧
      (wholeEnd cap e a).natAbs < JsNumber.maxExact := by
  have hbounds := wholeEnd_bounds (e := e) (a := a) hcaps.1
  have hnat : (wholeEnd cap e a).natAbs < JsNumber.maxExact := by omega
  refine ⟨?_, hnat⟩
  rw [graceWindowEnd_fin he (by exact_mod_cast hpos) hcap, ← Int.cast_sub,
    JsNumber.window_intCast hcaps, JsNumber.add_intCast hnat.le]
  rfl

/-! ### Anchors -/

def ExactTimes (s : EscrowState) : Prop :=
  s.expiresAt.isDouble = true ∧ ∀ v ∈ s.eventChain, v.timestamp.isDouble = true

structure ClockTime (s : EscrowState) (t : JsNumber) : Prop where
  number : t ≠ .nan
  exact : t.isDouble = true
  le : t ≤ slackEnd s

variable {t : JsNumber}

theorem ClockTime.clamp {e : ℚ} (he : s.expiresAt = .fin e) (hpos : 0 < e)
    (hnan : t ≠ .nan) (hdouble : t.isDouble = true) : ClockTime s (clampDisputeAnchor s t) := by
  have hzero : 0 < s.expiresAt := by
    rw [he, JsNumber.zero_eq_fin]
    exact JsNumber.fin_lt_fin.mpr hpos
  have hslack : slackEnd s ≠ .nan := slackEnd_eq he ▸ JsNumber.ofRat_ne_nan _
  unfold clampDisputeAnchor
  split_ifs with hlate
  · exact ⟨hslack, JsNumber.isDouble_add _ _, JsNumber.le_refl hslack⟩
  · refine ⟨hnan, hdouble, JsNumber.le_of_not_lt hslack hnan fun hlt => hlate ⟨hzero, hlt⟩⟩

theorem ClockTime.windowEnd {e : ℚ} (he : s.expiresAt = .fin e) (hpos : 0 < e)
    (h : ClockTime s t) : ClockTime s (graceWindowEnd s t) := by
  have hle := graceWindowEnd_le_slack he hpos h.exact h.le
  exact ⟨(JsNumber.ne_nan_of_le hle).1, JsNumber.isDouble_add _ _, hle⟩

theorem mem_chain_of_voteEvents {chain : List ParsedEscrowEvent}
    {v : ParsedEscrowEvent × VotePayload} (h : v ∈ voteEvents chain) : v.1 ∈ chain := by
  obtain ⟨e, he, hvote⟩ := List.mem_filterMap.mp h
  split at hvote
  · obtain rfl := Option.some.inj hvote
    exact he
  · cases hvote

theorem standingVoteAt_eq {role : Role} {outcome : Outcome}
    (h : standingVoteAt s role outcome = some t) :
    ∃ v ∈ s.eventChain, t = clampDisputeAnchor s v.timestamp := by
  obtain ⟨v, hfind, rfl⟩ := Option.map_eq_some_iff.mp h
  exact ⟨v.1, mem_chain_of_voteEvents (List.mem_of_find?_eq_some hfind), rfl⟩

theorem shareRefundAnchor_eq (h : shareRefundAnchor s = some t) :
    ∃ v ∈ s.eventChain, t = clampDisputeAnchor s v.timestamp := by
  obtain ⟨roles, -, hroles⟩ := List.exists_of_findSome?_eq_some h
  dsimp only at hroles
  split_ifs at hroles
  exact standingVoteAt_eq hroles

theorem releaseAnchor_eq (h : releaseAnchor s = some t) :
    ∃ v ∈ s.eventChain, t = clampDisputeAnchor s v.timestamp := by
  unfold releaseAnchor at h
  split at h
  · split_ifs at h
    exact standingVoteAt_eq h
  · cases h

theorem oneSidedReleaseAnchor_eq (h : oneSidedReleaseAnchor s = some t) :
    ∃ v ∈ s.eventChain, t = clampDisputeAnchor s v.timestamp := by
  unfold oneSidedReleaseAnchor at h
  split at h
  · exact releaseAnchor_eq h
  · exact shareRefundAnchor_eq h
  · rcases Option.or_eq_some_iff.mp h with hshare | ⟨-, hrelease⟩
    · exact shareRefundAnchor_eq hshare
    · exact releaseAnchor_eq hrelease

theorem firstVoteOf_mem {role : Role} {vote : Outcome × JsNumber}
    (h : firstVoteOf s role = some vote) : ∃ v ∈ s.eventChain, vote.2 = v.timestamp := by
  obtain ⟨v, hfind, rfl⟩ := Option.map_eq_some_iff.mp h
  exact ⟨v.1, mem_chain_of_voteEvents (List.mem_of_find?_eq_some hfind), rfl⟩

theorem disputeStartAt_cases (h : disputeStartAt s = some t) :
    (∃ v ∈ s.eventChain, ∃ w ∈ s.eventChain,
      t = clampDisputeAnchor s (JsNumber.max v.timestamp w.timestamp)) ∨
    ∃ anchor, oneSidedReleaseAnchor s = some anchor ∧ t = graceWindowEnd s anchor := by
  have hone (h : oneSidedEscalationAt s = some t) :
      ∃ anchor, oneSidedReleaseAnchor s = some anchor ∧ t = graceWindowEnd s anchor := by
    obtain ⟨anchor, hanchor, rfl⟩ := Option.map_eq_some_iff.mp h
    exact ⟨anchor, hanchor, rfl⟩
  unfold disputeStartAt at h
  split at h
  · rename_i buyerAt _ sellerAt hbuyer hseller
    split_ifs at h
    · obtain ⟨v, hv, hvt⟩ := firstVoteOf_mem hbuyer
      obtain ⟨w, hw, hwt⟩ := firstVoteOf_mem hseller
      refine Or.inl ⟨v, hv, w, hw, ?_⟩
      rw [← hvt, ← hwt]
      exact (Option.some.inj h).symm
    · exact Or.inr (hone h)
  · exact Or.inr (hone h)

section

variable {e : ℚ} (he : s.expiresAt = .fin e) (hpos : 0 < e) (htimes : ExactTimes s)
include he hpos htimes

theorem clockTime_of_anchor (h : oneSidedReleaseAnchor s = some t) : ClockTime s t := by
  obtain ⟨v, hv, rfl⟩ := oneSidedReleaseAnchor_eq h
  exact .clamp he hpos v.raw.createdAt_ne (htimes.2 v hv)

theorem clockTime_of_start (h : disputeStartAt s = some t) : ClockTime s t := by
  rcases disputeStartAt_cases h with ⟨v, hv, w, hw, rfl⟩ | ⟨anchor, hanchor, rfl⟩
  · have hnan : v.timestamp ≠ .nan ∧ w.timestamp ≠ .nan := ⟨v.raw.createdAt_ne, w.raw.createdAt_ne⟩
    exact .clamp he hpos (JsNumber.max_cases (· ≠ .nan) hnan.1 hnan.2 hnan)
      (JsNumber.max_cases (·.isDouble = true) (htimes.2 v hv) (htimes.2 w hw) hnan)
  · exact (clockTime_of_anchor he hpos htimes hanchor).windowEnd he hpos

end

def WholeClock (s : EscrowState) : Prop :=
  ∀ anchor, oneSidedReleaseAnchor s = some anchor →
    anchor.isSafeInteger = true ∧ s.expiresAt.isSafeInteger = true

/-- What a longer grace does to the three clocks. -/
structure LaterClocks (s s' : EscrowState) : Prop where
  anchor : oneSidedReleaseAnchor s' = oneSidedReleaseAnchor s
  escalation : Option.Rel (· ≤ ·) (oneSidedEscalationAt s) (oneSidedEscalationAt s')
  start : Option.Rel (· ≤ ·) (disputeStartAt s) (disputeStartAt s')
  eligible : WholeClock s →
    Option.Rel (· ≤ ·) (substitutionEligibleAt s) (substitutionEligibleAt s')

theorem secondWindow_mono {e : ℚ} (he : s.expiresAt = .fin e) (hpos : 0 < e)
    (h : clampSubstitutionGraceSeconds g ≤ clampSubstitutionGraceSeconds g') {anchor : JsNumber}
    (hanchor : anchor.isSafeInteger = true) (hdeadline : s.expiresAt.isSafeInteger = true) :
    graceWindowEnd (s.withGrace g) (graceWindowEnd (s.withGrace g) anchor) ≤
      graceWindowEnd (s.withGrace g') (graceWindowEnd (s.withGrace g') anchor) := by
  obtain ⟨a, ha, rfl⟩ := JsNumber.isSafeInteger_iff.mp hanchor
  obtain ⟨d, hd, hdeadline⟩ := JsNumber.isSafeInteger_iff.mp hdeadline
  have hdpos : 0 < d := by
    have heq : e = d := by simpa [he] using hdeadline
    rw [heq] at hpos
    exact_mod_cast hpos
  obtain ⟨cap, hcap, hcaps⟩ := clampSubstitutionGraceSeconds_bounds g
  obtain ⟨cap', hcap', hcaps'⟩ := clampSubstitutionGraceSeconds_bounds g'
  rw [hcap, hcap', JsNumber.intCast_le] at h
  have hend {g : Option JsNumber} {cap : ℤ} (hcap : clampSubstitutionGraceSeconds g = .fin cap)
      (hcaps : 0 ≤ cap ∧ cap ≤ 14400) {a : ℤ} (ha : a.natAbs < JsNumber.maxExact) :=
    graceWindowEnd_whole (s := s.withGrace g) hdeadline hdpos hd ha hcap hcaps
  obtain ⟨hfirst, hsafe⟩ := hend hcap hcaps ha
  obtain ⟨hfirst', hsafe'⟩ := hend hcap' hcaps' ha
  rw [hfirst, hfirst', (hend hcap hcaps hsafe).1, (hend hcap' hcaps' hsafe').1]
  exact JsNumber.intCast_le.mpr (wholeEnd_mono hcaps.1 h)

theorem laterClocks {e : ℚ} (he : s.expiresAt = .fin e) (hpos : 0 < e) (htimes : ExactTimes s)
    (h : clampSubstitutionGraceSeconds g ≤ clampSubstitutionGraceSeconds g') :
    LaterClocks (s.withGrace g) (s.withGrace g') := by
  have hsame (g : Option JsNumber) :
      oneSidedReleaseAnchor (s.withGrace g) = oneSidedReleaseAnchor s := rfl
  have hescalation (g : Option JsNumber) : oneSidedEscalationAt (s.withGrace g) =
      (oneSidedReleaseAnchor s).map (graceWindowEnd (s.withGrace g)) := rfl
  have hnumber {t : JsNumber} (ht : oneSidedReleaseAnchor s = some t) : t ≠ .nan :=
    (clockTime_of_anchor he hpos htimes ht).number
  have hone : Option.Rel (· ≤ ·) (oneSidedEscalationAt (s.withGrace g))
      (oneSidedEscalationAt (s.withGrace g')) := by
    rw [hescalation, hescalation]
    cases hanchor : oneSidedReleaseAnchor s with
    | none => exact .none
    | some anchor => exact .some (graceWindowEnd_mono he hpos h (hnumber hanchor))
  -- Two votes start a dispute at a time of their own, a lone one at the end of its window.
  have hstart : (∃ t, ClockTime s t ∧ ∀ g, disputeStartAt (s.withGrace g) = some t) ∨
      ∀ g, disputeStartAt (s.withGrace g) = oneSidedEscalationAt (s.withGrace g) := by
    have hfirst (g : Option JsNumber) (role : Role) :
        firstVoteOf (s.withGrace g) role = firstVoteOf s role := rfl
    unfold disputeStartAt
    simp only [hfirst]
    cases hbuyer : firstVoteOf s .buyer with
    | none => exact Or.inr fun _ => rfl
    | some buyer =>
      cases hseller : firstVoteOf s .seller with
      | none => exact Or.inr fun _ => rfl
      | some seller =>
        by_cases hcontest : buyer.1 = seller.1
        · exact Or.inr fun _ => if_neg (not_not.mpr hcontest)
        · refine Or.inl ⟨clampDisputeAnchor s (JsNumber.max buyer.2 seller.2), ?_,
            fun _ => if_pos hcontest⟩
          refine clockTime_of_start he hpos htimes ?_
          simp [disputeStartAt, hbuyer, hseller, hcontest]
  have heligible (g : Option JsNumber) : substitutionEligibleAt (s.withGrace g) =
      (disputeStartAt (s.withGrace g)).map (graceWindowEnd (s.withGrace g)) := rfl
  rcases hstart with ⟨t, ht, hstart⟩ | hstart
  · refine ⟨rfl, hone, ?_, fun _ => ?_⟩
    · rw [hstart, hstart]
      exact .some (JsNumber.le_refl ht.number)
    · rw [heligible, heligible, hstart, hstart]
      exact .some (graceWindowEnd_mono he hpos h ht.number)
  · refine ⟨rfl, hone, ?_, fun hwhole => ?_⟩
    · rwa [hstart, hstart]
    · rw [heligible, heligible, hstart, hstart, hescalation, hescalation]
      cases hanchor : oneSidedReleaseAnchor s with
      | none => exact .none
      | some anchor =>
        obtain ⟨hsafe, hdeadline⟩ := hwhole anchor ((hsame g).trans hanchor)
        exact .some (secondWindow_mono he hpos h hsafe hdeadline)

/-- Whether one grace setting asks for no more than another; left out, it is four hours. -/
def GraceLe : Option JsNumber → Option JsNumber → Prop
  | some g, some g' => g.isFinite = true ∧ g'.isFinite = true ∧ g ≤ g'
  | some g, none => g.isFinite = true
  | none, none => True
  | none, some _ => False

theorem GraceLe.clamp (h : GraceLe g g') :
    clampSubstitutionGraceSeconds g ≤ clampSubstitutionGraceSeconds g' := by
  cases g with
  | none =>
    cases g' with
    | none => exact JsNumber.le_refl (by decide)
    | some g' => cases h
  | some g =>
    cases g' with
    | none =>
      have hnan : g ≠ .nan := by
        rintro rfl
        cases h
      exact (clampSubstitutionGraceSeconds_mono h h (JsNumber.le_refl hnan)).2
    | some g' => exact (clampSubstitutionGraceSeconds_mono h.1 h.2.1 h.2.2).1

/-- In a state with a deadline after the epoch, every dispute clock stays within four hours of the
deadline, a window that opens before the deadline ends before it, no backup votes before the dispute
starts or later than the grace and half of what is left allow, and a longer grace moves no clock to
an earlier time. -/
theorem dispute_clock_bounds (s : EscrowState) (hfinite : s.expiresAt.isFinite = true)
    (hpos : 0 < s.expiresAt) (htimes : ExactTimes s) :
    (∀ t, oneSidedReleaseAnchor s = some t → t ≤ slackEnd s) ∧
    (∀ t, disputeStartAt s = some t → t ≤ slackEnd s) ∧
    (∀ anchor t, oneSidedReleaseAnchor s = some anchor → oneSidedEscalationAt s = some t →
      anchor < s.expiresAt → s.expiresAt < .fin JsNumber.maxExact → t < s.expiresAt) ∧
    (∀ t, substitutionEligibleAt s = some t → ∃ start, disputeStartAt s = some start ∧ start ≤ t ∧
      t ≤ start + JsNumber.min (clampSubstitutionGraceSeconds s.lock.substitutionGraceSeconds)
        (JsNumber.max 0 ((s.expiresAt - start).divBy 2)) ∧ t ≤ slackEnd s) ∧
    ∀ g g', GraceLe g g' → LaterClocks (s.withGrace g) (s.withGrace g') := by
  cases he : s.expiresAt with
  | fin e =>
    have hdeadline : 0 < e := by
      rw [he, JsNumber.zero_eq_fin] at hpos
      exact JsNumber.fin_lt_fin.mp hpos
    refine ⟨fun t ht => (clockTime_of_anchor he hdeadline htimes ht).le,
      fun t ht => (clockTime_of_start he hdeadline htimes ht).le,
      fun anchor t hanchor ht hlt hexact => ?_, fun t ht => ?_,
      fun g g' h => laterClocks he hdeadline htimes h.clamp⟩
    · rw [oneSidedEscalationAt, hanchor, Option.map_some, Option.some.injEq] at ht
      have hclock := clockTime_of_anchor he hdeadline htimes hanchor
      subst ht
      cases anchor with
      | fin a =>
        rw [← he]
        exact graceWindowEnd_lt he hdeadline (JsNumber.fin_lt_fin.mp hexact) (he ▸ htimes.1)
          hclock.exact (JsNumber.fin_lt_fin.mp hlt)
      | nan => exact absurd rfl hclock.number
      | posInf => cases hlt
      | negInf =>
        rw [graceWindowEnd_infinite he hdeadline (Or.inr rfl)]
        rfl
    · obtain ⟨start, hstart, rfl⟩ := Option.map_eq_some_iff.mp ht
      have hclock := clockTime_of_start he hdeadline htimes hstart
      refine ⟨start, hstart, le_graceWindowEnd he hdeadline hclock.number hclock.exact, ?_,
        (hclock.windowEnd he hdeadline).le⟩
      rw [← he]
      exact graceWindowEnd_le he hdeadline hclock.number
  | nan => rw [he] at hfinite; cases hfinite
  | posInf => rw [he] at hfinite; cases hfinite
  | negInf => rw [he] at hfinite; cases hfinite

/-! ### Trades with odd deadlines -/

/-- The CREATE of a trade from before the rule that bounds the time of a LOCK. -/
def legacyCreate : ParsedEscrowEvent := sampleEvent '0' 'a' 1700000000 (.create {
  description := "coins"
  amountMsats := 1000000
  category := "p2p-trade"
  mintUrl := "https://mint"
  platformFeeBps := 0
  platformFeePubkey := hexKey 'd'
  expirySeconds := 3600
  communityArbiters := .arr [.str (hexKey 'c')]
  createdAt := 1700000000 })

def legacyJoin : ParsedEscrowEvent := sampleEvent '1' 'b' 1700000010 (.join {
  role := .buyer
  joinedAt := 1700000010 })

def legacyLock (lockedAt : JsNumber) : ParsedEscrowEvent := sampleEvent '2' 'a' 1700000020 (.lock {
  notesHash := .str "notes"
  shares := .arr ([0, 1, 2].map fun i => .obj [("shareIndex", .num (.ofInt i))])
  sellerReceivesMsats := 1000000
  arbiterFeeMsats := 0
  buyerPubkey := hexKey 'b'
  arbiterPubkey := hexKey 'c'
  lockedAt })

/-- The buyer's lone RELEASE, at a time of the buyer's choice. -/
def legacyVote (time : { t : JsNumber // t ≠ .nan }) : ParsedEscrowEvent where
  raw := {
    id := hexKey '3'
    pubkey := hexKey 'b'
    createdAt := time
    id_ne := hexKey_ne '3'
    pubkey_ne := hexKey_ne 'b'
    createdAt_ne := time.2 }
  payload := .vote { outcome := .release, role := .buyer, votedAt := time }
  escrowId := "sm_sample"

def legacyTrade (lockedAt : JsNumber) (time : { t : JsNumber // t ≠ .nan }) : Option EscrowState :=
  liveTrade silentHost legacyCreate [legacyJoin, legacyLock lockedAt, legacyVote time]

theorem exists_of_legacyTrade {lockedAt : JsNumber} {time : { t : JsNumber // t ≠ .nan }}
    {check : EscrowState → Bool} (h : (legacyTrade lockedAt time).any check = true) :
    ∃ s, Reached silentHost s ∧ check s = true := by
  obtain ⟨s, hs, hcheck⟩ := (Option.any_eq_true _ _).mp h
  exact ⟨s, liveTrade_reached silentHost hs, hcheck⟩

/-- Without a deadline after the epoch no anchor is capped; after `2^53` seconds a window can end at
the deadline; between fractions of a second a longer grace can end earlier by a rounding error; and
against an infinite deadline an infinite vote has no window at all. -/
theorem dispute_clock_corners :
    (∃ s t, Reached silentHost s ∧ oneSidedReleaseAnchor s = some t ∧ ¬t ≤ slackEnd s) ∧
    (∃ s anchor t, Reached silentHost s ∧ oneSidedReleaseAnchor s = some anchor ∧
      anchor < s.expiresAt ∧ oneSidedEscalationAt s = some t ∧ ¬t < s.expiresAt) ∧
    (∃ s t t', Reached silentHost s ∧ substitutionEligibleAt (s.withGrace (some 2)) = some t ∧
      substitutionEligibleAt (s.withGrace (some 3)) = some t' ∧ ¬t ≤ t') ∧
    ∃ s start t, Reached silentHost s ∧ disputeStartAt s = some start ∧
      substitutionEligibleAt s = some t ∧ ¬start ≤ t := by
  have hcap : (legacyTrade (.fin (-3600)) ⟨1700000030, by decide⟩).any (fun s =>
      (oneSidedReleaseAnchor s).any fun t => !(t ≤ slackEnd s)) = true := by
    decide +kernel
  have hstrict : (legacyTrade (.fin (2 ^ 53 - 3596)) ⟨.fin (2 ^ 53 + 2), by decide⟩).any (fun s =>
      (oneSidedReleaseAnchor s).any fun anchor => (oneSidedEscalationAt s).any fun t =>
        anchor < s.expiresAt && !(t < s.expiresAt)) = true := by
    decide +kernel
  have hmono : (legacyTrade (.fin (-3594)) ⟨.fin (-5 / 2 ^ 54), by decide⟩).any (fun s =>
      (substitutionEligibleAt (s.withGrace (some 2))).any fun t =>
        (substitutionEligibleAt (s.withGrace (some 3))).any fun t' => !(t ≤ t')) = true := by
    decide +kernel
  have hinfinite : (legacyTrade .posInf ⟨.posInf, by decide⟩).any (fun s =>
      (disputeStartAt s).any fun start => (substitutionEligibleAt s).any fun t =>
        !(start ≤ t)) = true := by
    decide +kernel
  refine ⟨?_, ?_, ?_, ?_⟩
  · obtain ⟨s, hs, h⟩ := exists_of_legacyTrade hcap
    obtain ⟨t, ht, h⟩ := (Option.any_eq_true _ _).mp h
    exact ⟨s, t, hs, ht, by simpa using h⟩
  · obtain ⟨s, hs, h⟩ := exists_of_legacyTrade hstrict
    obtain ⟨anchor, hanchor, h⟩ := (Option.any_eq_true _ _).mp h
    obtain ⟨t, ht, h⟩ := (Option.any_eq_true _ _).mp h
    rw [Bool.and_eq_true] at h
    exact ⟨s, anchor, t, hs, hanchor, of_decide_eq_true h.1, ht, by simpa using h.2⟩
  · obtain ⟨s, hs, h⟩ := exists_of_legacyTrade hmono
    obtain ⟨t, ht, h⟩ := (Option.any_eq_true _ _).mp h
    obtain ⟨t', ht', h⟩ := (Option.any_eq_true _ _).mp h
    exact ⟨s, t, t', hs, ht, ht', by simpa using h⟩
  · obtain ⟨s, hs, h⟩ := exists_of_legacyTrade hinfinite
    obtain ⟨start, hstart, h⟩ := (Option.any_eq_true _ _).mp h
    obtain ⟨t, ht, h⟩ := (Option.any_eq_true _ _).mp h
    exact ⟨s, start, t, hs, hstart, ht, by simpa using h⟩

/-- A RELEASE five minutes before the deadline is ruled on before the deadline. -/
theorem dispute_clock_bounds_sample : ∃ s t, Reached silentHost s ∧
    oneSidedEscalationAt s = some t ∧ t < s.expiresAt := by
  have hrun : (legacyTrade 1700000020 ⟨1700003320, by decide⟩).any (fun s =>
      s.expiresAt.isFinite && 0 < s.expiresAt && s.expiresAt.isDouble
        && (s.eventChain.all fun v => v.timestamp.isDouble)
        && (oneSidedReleaseAnchor s).any fun anchor => (oneSidedEscalationAt s).isSome
          && anchor < s.expiresAt && s.expiresAt < .fin JsNumber.maxExact) = true := by
    decide +kernel
  obtain ⟨s, hs, h⟩ := exists_of_legacyTrade hrun
  simp only [Bool.and_eq_true, decide_eq_true_eq] at h
  obtain ⟨⟨⟨⟨hfinite, hpos⟩, hdouble⟩, htimes⟩, hclock⟩ := h
  obtain ⟨anchor, hanchor, hclock⟩ := (Option.any_eq_true _ _).mp hclock
  simp only [Bool.and_eq_true, decide_eq_true_eq] at hclock
  obtain ⟨⟨hsome, hlt⟩, hexact⟩ := hclock
  obtain ⟨t, ht⟩ := Option.isSome_iff_exists.mp hsome
  exact ⟨s, t, hs, ht, (dispute_clock_bounds s hfinite hpos
    ⟨hdouble, List.all_eq_true.mp htimes⟩).2.2.1 anchor t hanchor ht hlt hexact⟩

end ChamaEscrow
