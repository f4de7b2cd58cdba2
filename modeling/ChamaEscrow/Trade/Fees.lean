import ChamaEscrow.Engine.EventParser
import ChamaEscrow.Js.Rounding
import ChamaEscrow.Trade.Lifecycle

/-!
# The arbiter's fee

Three handlers write the arbiter's fee, from numbers that signers choose, and the LOCK of a menu
order also changes the amount that the fee is bounded by.  `sanitizeArbiterFeeMsats` bounds the fee
by the amount of its own call; the invariant is that the bound still holds for the amount of the
state, because no handler changes the amount without writing the fee again.

`fee_bounds` is the result, for the trades whose CREATE came through the parser.
-/

namespace ChamaEscrow

open Js Library

variable {host : Host} {s s' : EscrowState} {e : ParsedEscrowEvent}

/-! ### One call -/

structure FeeBounds (fee amount : JsNumber) : Prop where
  whole : fee.isInteger = true
  nonneg : 0 ≤ fee
  le : fee ≤ amount

variable {amount : JsNumber}

theorem FeeBounds.zero (hpos : 0 < amount) : FeeBounds 0 amount :=
  ⟨by decide, by decide, JsNumber.le_of_lt hpos⟩

theorem FeeBounds.mono {fee cap amount : JsNumber} (h : FeeBounds fee cap) (hle : cap ≤ amount) :
    FeeBounds fee amount :=
  ⟨h.whole, h.nonneg, JsNumber.le_trans h.le hle⟩

theorem isFinite_of_bounds {a b : JsNumber} {q : ℚ} (hzero : 0 ≤ a) (hle : a ≤ b)
    (hb : b = .fin q) : a.isFinite = true := by
  subst hb
  rw [JsNumber.zero_eq_fin] at hzero
  cases a with
  | fin q => rfl
  | nan => cases hzero
  | posInf => cases hle
  | negInf => cases hzero

theorem feeBounds_clamp {cap : JsNumber} {n : ℤ} (hwhole : cap.isInteger = true) (hcap : 0 ≤ cap) :
    FeeBounds (JsNumber.max 0 (JsNumber.min cap (.ofInt n))) cap := by
  have hcapNan : cap ≠ .nan := by
    rintro rfl
    cases hwhole
  have hzeroNan : (0 : JsNumber) ≠ .nan := JsNumber.ofInt_ne_nan 0
  have hself : cap ≤ cap := by
    cases cap with
    | fin q => exact JsNumber.fin_le_fin.mpr le_rfl
    | _ => cases hwhole
  have hmin : JsNumber.min cap (.ofInt n) = if cap ≤ .ofInt n then cap else .ofInt n := by
    rw [JsNumber.min, if_neg (by simp [hcapNan, JsNumber.ofInt_ne_nan])]
  have hminNan : JsNumber.min cap (.ofInt n) ≠ .nan := by
    rw [hmin]
    split_ifs
    · exact hcapNan
    · exact JsNumber.ofInt_ne_nan n
  rw [JsNumber.max, if_neg (by simp [hzeroNan, hminNan])]
  split_ifs with hpos
  · rw [hmin] at hpos ⊢
    split_ifs at hpos ⊢ with hle
    · exact ⟨hwhole, hcap, hself⟩
    · have hbelow : JsNumber.ofInt n ≤ cap := by
        by_contra habove
        rcases JsNumber.le_total_of_ne_nan hcapNan (JsNumber.ofInt_ne_nan n) with h | h
        · exact hle h
        · exact habove h
      obtain ⟨q, hq⟩ : ∃ q, cap = .fin q := by
        cases cap with
        | fin q => exact ⟨q, rfl⟩
        | _ => cases hwhole
      exact ⟨JsNumber.isInteger_ofInt (isFinite_of_bounds hpos hbelow hq), hpos, hbelow⟩
  · exact ⟨by decide, by decide, hcap⟩

theorem sanitizeArbiterFeeMsats_bounds (value : JsValue)
    (hdouble : amount.isDouble = true) (hpos : 0 < amount) :
    FeeBounds (sanitizeArbiterFeeMsats value amount) amount := by
  unfold sanitizeArbiterFeeMsats
  split
  · rename_i fee
    by_cases hfinite : fee.isFinite = true
    · obtain ⟨n, hn⟩ : ∃ n, fee.floor = .ofInt n := by
        cases fee with
        | fin q => exact ⟨⌊q⌋, rfl⟩
        | _ => cases hfinite
      simp only [hfinite, Bool.not_true, Bool.false_eq_true, if_false, hn]
      split_ifs with hcap
      · simp only [Bool.and_eq_true, decide_eq_true_eq] at hcap
        obtain ⟨hnonneg, hle⟩ := JsNumber.floor_bounds hdouble hpos
        obtain ⟨q, rfl⟩ : ∃ q, amount = .fin q := by
          cases amount with
          | fin q => exact ⟨q, rfl⟩
          | _ => cases hcap.1
        have hwhole := JsNumber.isInteger_ofInt (isFinite_of_bounds hnonneg hle rfl)
        exact (feeBounds_clamp hwhole hnonneg).mono hle
      · exact (feeBounds_clamp (by decide) (by decide)).mono (JsNumber.le_of_lt hpos)
    · simp only [hfinite, Bool.not_false, if_true]
      exact FeeBounds.zero hpos
  · exact FeeBounds.zero hpos

/-! ### The amount of a LOCK -/

theorem isDouble_selectedItemsTotalMsats (items : List SelectedMenuItem) :
    (selectedItemsTotalMsats items).isDouble = true := by
  unfold selectedItemsTotalMsats
  have hfold (items : List SelectedMenuItem) (sum : JsNumber) (hsum : sum.isDouble = true) :
      (items.foldl (fun sum item => sum + item.amountMsats * item.quantity) sum).isDouble
        = true := by
    induction items generalizing sum with
    | nil => exact hsum
    | cons item rest ih => exact ih _ (JsNumber.isDouble_add _ _)
  exact hfold items 0 (by decide)

variable {p : LockPayload}

theorem lockOrderGate_amount (h : lockOrderGate s e p = .ok amount) :
    amount = s.amountMsats ∨
      amount = selectedItemsTotalMsats ((p.selectedItems.getD []).map cloneSelectedMenuItem) ∧
        ¬ amount ≤ 0 := by
  unfold lockOrderGate at h
  dsimp only at h
  split at h
  · simp only [bind_eq_ok, pure_eq_ok] at h
    obtain ⟨-, -, rfl⟩ := h
    exact Or.inl rfl
  · simp only [bind_eq_ok, pure_eq_ok] at h
    obtain ⟨-, -, rfl⟩ := h
    exact Or.inl rfl
  · simp only [bind_eq_ok, pure_eq_ok, guardErr_eq_ok] at h
    obtain ⟨-, -, -, -, -, -, -, htotal, rfl⟩ := h
    exact Or.inr ⟨rfl, htotal⟩

theorem ne_nan_of_lockAmountGate (h : lockAmountGate e p amount = .ok ()) : amount ≠ .nan := by
  rintro rfl
  simp only [lockAmountGate, bind_eq_ok, guardErr_eq_ok] at h
  obtain ⟨-, -, -, -, hsum⟩ := h
  simp [JsNumber.strictEq] at hsum

/-- An amount that a trade can have: a positive binary64 value. -/
structure AmountLaw (amount : JsNumber) : Prop where
  double : amount.isDouble = true
  pos : 0 < amount

theorem AmountLaw.lock (hs : AmountLaw s.amountMsats)
    (horder : lockOrderGate s e p = .ok amount) (hamounts : lockAmountGate e p amount = .ok ()) :
    AmountLaw amount := by
  rcases lockOrderGate_amount horder with rfl | ⟨rfl, htotal⟩
  · exact hs
  · refine ⟨isDouble_selectedItemsTotalMsats _, ?_⟩
    by_contra hpos
    exact htotal (JsNumber.le_of_not_lt (JsNumber.ofInt_ne_nan 0)
      (ne_nan_of_lockAmountGate hamounts) hpos)

theorem lockedState_arbiterMsats {next : EscrowState}
    {shares : OrderedMap String JsValue} {withheld : Option Withheld} :
    (lockedState s next e p amount shares withheld).fees.arbiterMsats =
      sanitizeArbiterFeeMsats (.num p.arbiterFeeMsats) amount := rfl

/-! ### Steps -/

structure FeeLaw (s : EscrowState) : Prop where
  amount : AmountLaw s.amountMsats
  fee : FeeBounds s.fees.arbiterMsats s.amountMsats

theorem FeeLaw.of_eq (h : FeeLaw s) (hamount : s'.amountMsats = s.amountMsats)
    (hfees : s'.fees = s.fees) : FeeLaw s' :=
  ⟨by rw [hamount]; exact h.amount, by rw [hfees, hamount]; exact h.fee⟩

theorem FeeLaw.handled (h : FeeLaw s) (hstep : Handled host s e s') : FeeLaw s' := by
  cases hstep
  case planRepeated => exact h
  case seatJoined clone =>
    refine ⟨?_, ?_⟩ <;> dsimp only
    · rw [clone.amountMsats]
      exact h.amount
    · rw [clone.amountMsats, clone.fees]
      split_ifs
      · exact sanitizeArbiterFeeMsats_bounds _ h.amount.double h.amount.pos
      · exact h.fee
  case locked order amounts _ _ clone =>
    have hamount := h.amount.lock order amounts
    refine ⟨hamount, ?_⟩
    rw [lockedState_arbiterMsats]
    exact sanitizeArbiterFeeMsats_bounds _ hamount.double hamount.pos
  case voted clone count =>
    obtain ⟨votes, acting, rfl⟩ := countVote_eq_ok count
    exact h.of_eq clone.amountMsats clone.fees
  case stalled clone => exact h.of_eq clone.amountMsats clone.fees
  all_goals
    rename_i clone
    exact h.of_eq clone.amountMsats clone.fees

theorem FeeLaw.step (h : FeeLaw s) (hstep : Stepped host s e s') : FeeLaw s' := by
  have hexpired {next : EscrowState} (hexpires : Expires s e next) : FeeLaw next := by
    obtain ⟨copy, clone, rfl⟩ := hexpires.eq
    exact h.of_eq clone.amountMsats clone.fees
  cases hstep with
  | echoed => exact h
  | premium _ _ clone => exact h.of_eq clone.amountMsats clone.fees
  | settlement _ _ clone => exact h.of_eq clone.amountMsats clone.fees
  | expired _ expires => exact hexpired expires
  | handled _ _ _ _ handled => exact h.handled handled
  | lateHandled _ _ expires handled => exact (hexpired expires).handled handled

/-! ### Runs -/

/-- A CREATE out of the parser, whose amount is a binary64 value, as every number of a JSON document
is. -/
def ParsedCreate (host : Host) (s : EscrowState) : Prop :=
  ∃ e p, Parsed host e ∧ e.payload = .create p ∧ p.amountMsats.isDouble = true ∧
    handleCreate host e p = .ok s

def ParsedRuns (host : Host) : EscrowState → Prop :=
  Reachable (applyToState host) (ParsedCreate host)

theorem pos_of_parsed {p : CreatePayload} (h : Parsed host e) (hp : e.payload = .create p) :
    0 < p.amountMsats := by
  obtain ⟨d, hvalid, hread⟩ := h.payload
  have hkind : e.kind = .create := by rw [ParsedEscrowEvent.kind, hp, EscrowPayload.kind]
  rw [hkind] at hvalid hread
  rw [hp] at hread
  simp only [validatePayload, validateCreatePayload, Except.ok.injEq, Bool.and_eq_true] at hvalid
  have hpositive : isNumberWith (fun n => 0 < n) (d.field "amountMsats") = true := by tauto
  obtain rfl : p = readCreate d := by simpa [readPayload] using hread
  obtain ⟨amount, hamount, hpos⟩ := (Option.any_eq_true _ _).mp hpositive
  change 0 < d.numberAt "amountMsats"
  rw [JsValue.numberAt, hamount]
  exact of_decide_eq_true hpos

theorem FeeLaw.created (h : ParsedCreate host s) : FeeLaw s := by
  obtain ⟨e, p, hparsed, hp, hdouble, hcreate⟩ := h
  have hpos := pos_of_parsed hparsed hp
  simp only [handleCreate, bind_eq_ok, pure_eq_ok] at hcreate
  obtain ⟨_, -, _, -, _, -, _, -, _, -, _, -, _, -, _, -, _, -, _, -, rfl⟩ := hcreate
  exact ⟨⟨hdouble, hpos⟩, sanitizeArbiterFeeMsats_bounds _ hdouble hpos⟩

theorem FeeLaw.reached (h : ParsedRuns host s) : FeeLaw s :=
  Reachable.invariant (I := FeeLaw) (fun _ => FeeLaw.created)
    (fun _ _ _ hs hstep => hs.step (applyToState_stepped hstep)) h

/-- In every state of a trade, the arbiter's fee is a whole number between zero and the amount. -/
theorem fee_bounds (host : Host) (s : EscrowState) (h : ParsedRuns host s) :
    s.fees.arbiterMsats.isInteger = true ∧ 0 ≤ s.fees.arbiterMsats ∧
      s.fees.arbiterMsats ≤ s.amountMsats := by
  have hlaw := FeeLaw.reached h
  exact ⟨hlaw.fee.whole, hlaw.fee.nonneg, hlaw.fee.le⟩

/-! ### A trade with odd fees -/

theorem parsedRuns_of_liveTrade {create : ParsedEscrowEvent} {p : CreatePayload}
    {events : List ParsedEscrowEvent} (hparsed : Parsed host create)
    (hp : create.payload = .create p) (hdouble : p.amountMsats.isDouble = true)
    (h : liveTrade host create events = some s) : ParsedRuns host s := by
  unfold liveTrade at h
  split at h
  · rename_i s₀ hcreate
    rw [Option.some.injEq] at h
    have hcreate : handleCreate host create p = .ok s₀ := by simpa [applyEvent, hp] using hcreate
    exact h ▸ Run.fold (.start ⟨create, p, hparsed, hp, hdouble, hcreate⟩) fun _ _ _ => trivial
  · cases h

/-- The content of a CREATE that asks for a fee of two and a half times the amount. -/
def greedyContent : JsValue := .obj [
  ("type", .str "escrow:create"),
  ("description", .str "coins"),
  ("amountMsats", .num 1000000),
  ("category", .str "p2p-trade"),
  ("mintUrl", .str "https://mint"),
  ("platformFeeBps", .num 0),
  ("platformFeePubkey", .str (hexKey 'd')),
  ("arbiterFeeMsats", .num (.fin (5000001 / 2))),
  ("expirySeconds", .num 3600),
  ("communityArbiters", .arr [.str (hexKey 'c')]),
  ("createdAt", .num 1800000000)]

def greedyCreate : NostrEvent where
  id := hexKey '0'
  pubkey := hexKey 'a'
  createdAt := 1800000000
  tags := [["d", "sm_sample"]]
  id_ne := hexKey_ne '0'
  pubkey_ne := hexKey_ne 'a'
  createdAt_ne := JsNumber.ofInt_ne_nan 1800000000

def negativeFeeLock : ParsedEscrowEvent := sampleEvent '2' 'a' 1800000020 (.lock {
  notesHash := .str "notes"
  shares := .arr ([0, 1, 2].map fun i => .obj [("shareIndex", .num (.ofInt i))])
  sellerReceivesMsats := 1500000
  arbiterFeeMsats := .fin (-500000)
  buyerPubkey := hexKey 'b'
  arbiterPubkey := hexKey 'c'
  lockedAt := 1800000020 })

/-- The CREATE keeps the whole amount as fee, the LOCK none of it. -/
def createsDouble (create : ParsedEscrowEvent) : Bool :=
  match create.payload with
  | .create p => p.amountMsats.isDouble
  | _ => false

theorem fee_bounds_sample : ∃ created locked : EscrowState,
    created.fees.arbiterMsats = 1000000 ∧ locked.fees.arbiterMsats = 0 ∧
      (created.fees.arbiterMsats.isInteger = true ∧ 0 ≤ created.fees.arbiterMsats ∧
        created.fees.arbiterMsats ≤ created.amountMsats) ∧
      locked.fees.arbiterMsats.isInteger = true ∧ 0 ≤ locked.fees.arbiterMsats ∧
        locked.fees.arbiterMsats ≤ locked.amountMsats := by
  have hrun : ((parseEscrowEvent silentHost greedyCreate EscrowEventKind.create.number
      (.ok greedyContent) {}).toOption.any fun create => createsDouble create &&
      ((liveTrade silentHost create []).any fun s => s.fees.arbiterMsats = 1000000) &&
      ((liveTrade silentHost create [sampleJoin, negativeFeeLock]).any fun s =>
        s.fees.arbiterMsats = 0 && s.status = .locked)) = true := by
    decide +kernel
  obtain ⟨create, hparse, hrun⟩ := exists_ok_of_any hrun
  rw [Bool.and_eq_true, Bool.and_eq_true] at hrun
  obtain ⟨⟨hpayload, hcreated⟩, hlocked⟩ := hrun
  unfold createsDouble at hpayload
  split at hpayload
  · rename_i p hp
    obtain ⟨created, hc, hfee⟩ := (Option.any_eq_true _ _).mp hcreated
    obtain ⟨locked, hl, hzero⟩ := (Option.any_eq_true _ _).mp hlocked
    simp only [Bool.and_eq_true, decide_eq_true_eq] at hfee hzero
    have hruns {events : List ParsedEscrowEvent} {s : EscrowState}
        (h : liveTrade silentHost create events = some s) : ParsedRuns silentHost s :=
      parsedRuns_of_liveTrade ⟨_, _, _, _, hparse⟩ hp hpayload h
    exact ⟨created, locked, hfee, hzero.1, fee_bounds silentHost created (hruns hc),
      fee_bounds silentHost locked (hruns hl)⟩
  · cases hpayload

end ChamaEscrow
