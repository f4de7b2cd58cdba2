import ChamaEscrow.Client.PendingRedemptions
import ChamaEscrow.Js.Rounding
import ChamaEscrow.Js.Value
import ChamaEscrow.Library.Guarded
import ChamaEscrow.Library.Machine

/-!
# Reissuing notes as a probe

`reabsorbBearerNotes` asks the federation whether notes are live by taking them, and reads its
answer off an error and two balances.

* `isThisNotesCredit_iff`: the movement that counts as the credit of a note.
* `reabsorb_sound_iff`: in every run of probes a verdict of recovery is sound unless the wallet
  rejects with `null`, which the code takes for a resolve, and the credit is short.
-/

namespace ChamaEscrow.Reabsorb

open Js Library

/-! ### What the wallet answers -/

/-- What a call of the wallet rejects with: a value has the text that `errText` finds, and may carry
a code, the id of an operation and a cause. -/
inductive Rejection
  | null
  | undefined
  | value (text : String) (code operationId : Option String) (cause : Rejection)
  deriving DecidableEq

/-- `parseNotes`, as far as the probe reads it. -/
structure ParsedNotes where
  totalAmount : JsNumber
  federationId : Option String := none

structure WalletAnswers where
  parseNotes : Except Rejection ParsedNotes
  getFederationId : Option String
  balanceBefore : Except Rejection JsNumber
  redeemWithRetry : Except Rejection Unit
  balanceAfter : Except Rejection JsNumber

/-- `ReabsorbInput`, without what is only logged. -/
structure ReabsorbInput where
  oobNotes : String
  expectedMsats : JsNumber

inductive ReabsorbResult
  | recovered (recoveredMsats expectedMsats balanceBefore balanceAfter : JsNumber)
    (lateCredit : Bool)
  | consumedUncredited (reason : String) (balanceBefore : JsNumber)
    (balanceAfter : Option JsNumber)
  | dead (reason : String) (balanceBefore : JsNumber) (balanceAfter : Option JsNumber)
  | unknown (reason : String) (balanceBefore balanceAfter : Option JsNumber)
  | foreign (noteFederationId : String) (walletFederationId : Option String)
  deriving DecidableEq

/-! ### Reading an error -/

def errText : Rejection → String
  | .null => "null"
  | .undefined => "undefined"
  | .value text _ _ _ => text

def errCode : Rejection → String
  | .value _ code _ _ => code.getD ""
  | _ => ""

/-- `errorChain`: an error and its causes. -/
def errorChain : (maxDepth : ℕ) → Rejection → List Rejection
  | 0, _ | _, .null | _, .undefined => []
  | maxDepth + 1, .value text code operationId cause =>
    .value text code operationId cause :: errorChain maxDepth cause

def mentions (words : List String) (e : Rejection) : Bool :=
  words.any (includes (toLowerCase (errText e)))

def saysAlreadyConsumed : Rejection → Bool :=
  mentions ["already spent", "already redeemed", "already reissued", "already used", "double spend",
    "double-spend", "note already", "mint reissue operation failed after federation consumed"]

def isConsumedCreditUnproven (e : Rejection) : Bool :=
  let code := errCode e
  if code = "ALREADY_SPENT_UNCONFIRMED" ∨ code = "MINT_REISSUE_FAILED" then true
  else if code = "MINT_REISSUE_UNKNOWN" then (errorChain 4 e).tail.any saysAlreadyConsumed
  else if code = "MINT_REISSUE_PENDING" ∨ code = "REDEEM_TIMEOUT" then false
  else (errorChain 4 e).any saysAlreadyConsumed

def isNeverValidRejection : Rejection → Bool :=
  mentions ["malformed", "invalid note format", "parse error"]

def isForeignFederationError : Rejection → Bool :=
  mentions ["invalid federation", "belongs to federation"]

def reissueAcceptedByFederation : Rejection → Bool
  | .value _ code operationId _ =>
    code = some "MINT_REISSUE_PENDING" && operationId.any (· ≠ "")
  | _ => false

/-! ### Reading the balances -/

/-- `reissueFeeAllowanceMsats`: half a percent of the note, and at least ten sats. -/
def reissueFeeAllowanceMsats (expectedMsats : JsNumber) : JsNumber :=
  JsNumber.max (expectedMsats * .ofRat (5 / 1000)).ceil 10000

def isThisNotesCredit (deltaMsats expectedMsats : JsNumber) : Bool :=
  if ¬ 0 < expectedMsats ∨ ¬ 0 < deltaMsats then false
  else if expectedMsats < deltaMsats then false
  else if deltaMsats * 2 < expectedMsats then false
  else expectedMsats - deltaMsats ≤ reissueFeeAllowanceMsats expectedMsats

/-! ### The probe -/

/-- Whether both federations are known and differ. -/
def isForeignNote (noteFed walletFed : Option String) : Bool :=
  noteFed.any fun note => walletFed.any fun wallet =>
    note ≠ "" && wallet ≠ "" && toLowerCase note ≠ toLowerCase wallet

def satsText (msats : JsNumber) : String := toString (msats / 1000).floor

def cleanVerdict (expectedMsats balanceBefore : JsNumber) (balanceAfter : Option JsNumber) :
    ReabsorbResult :=
  let delta := balanceAfter.map (· - balanceBefore)
  match balanceAfter, delta.filter (isThisNotesCredit · expectedMsats) with
  | some after, some delta => .recovered delta expectedMsats balanceBefore after false
  | _, _ => .unknown ("The reissue reported success but your balance didn't move by the expected " ++
      "amount (expected " ++ satsText expectedMsats ++ " sats, saw " ++
      delta.elim "no reading" (satsText · ++ " sats") ++
      "). Nothing has been marked — this note is being left exactly as it was.")
      (some balanceBefore) balanceAfter

def lateCreditIsThisNote (e : Rejection) (delta expectedMsats : JsNumber) : Bool :=
  isThisNotesCredit delta expectedMsats &&
    (delta.strictEq expectedMsats || reissueAcceptedByFederation e)

def thrownVerdict (parsed : ParsedNotes) (walletFed : Option String) (e : Rejection)
    (expectedMsats balanceBefore : JsNumber) (balanceAfter : Option JsNumber) : ReabsorbResult :=
  let delta := balanceAfter.map (· - balanceBefore)
  if isForeignFederationError e then .foreign (parsed.federationId.getD "unknown") walletFed
  else if isConsumedCreditUnproven e then .consumedUncredited (errText e) balanceBefore balanceAfter
  else if isNeverValidRejection e then .dead (errText e) balanceBefore balanceAfter
  else
    match balanceAfter, delta.filter (lateCreditIsThisNote e · expectedMsats) with
    | some after, some delta => .recovered delta expectedMsats balanceBefore after true
    | _, _ =>
      match delta.filter (!·.strictEq 0) with
      | some delta => .unknown ("The reissue didn't complete, and your balance moved by an amount " ++
          "that doesn't match this note (expected " ++ satsText expectedMsats ++ " sats, saw " ++
          satsText delta ++ ") — so that movement can't be credited to it. " ++
          "Nothing has been marked.") (some balanceBefore) balanceAfter
      | none => .unknown (errText e) (some balanceBefore) balanceAfter

def runProbe (wallet : WalletAnswers) (input : ReabsorbInput) : ReabsorbResult :=
  match wallet.parseNotes with
  | .error e => .unknown ("These notes couldn't be read on this device: " ++ errText e) none none
  | .ok parsed =>
    if isForeignNote parsed.federationId wallet.getFederationId then
      .foreign (parsed.federationId.getD "") wallet.getFederationId
    else
      match wallet.balanceBefore with
      | .error _ => .unknown ("Couldn't read your balance, so this note wasn't touched — " ++
          "there'd be no way to tell whether it landed. Try again in a moment.") none none
      | .ok balanceBefore =>
        -- `thrown` is `null` until the `catch` assigns it what was thrown
        let thrown := match wallet.redeemWithRetry with
          | .ok () => Rejection.null
          | .error e => e
        let balanceAfter := wallet.balanceAfter.toOption
        if thrown = .null then cleanVerdict input.expectedMsats balanceBefore balanceAfter
        else thrownVerdict parsed wallet.getFederationId thrown input.expectedMsats balanceBefore
          balanceAfter

/-! ### Probes under way -/

/-- A probe: what it was asked, and what the wallet answers it. -/
structure Probe where
  wallet : WalletAnswers
  input : ReabsorbInput

def Probe.result (probe : Probe) : ReabsorbResult := runProbe probe.wallet probe.input

/-- The probes under way (`inFlightProbesByNotes`), and what the calls were promised, each with the
probe that it waits for. -/
structure Probes where
  inFlight : OrderedMap String Probe := .empty
  promised : List (ReabsorbInput × Option Probe × ReabsorbResult) := []

/-- `reabsorbBearerNotes`: a call for notes that are being probed waits for that probe. -/
def reabsorbBearerNotes (probes : Probes) (wallet : WalletAnswers) (input : ReabsorbInput) :
    Probes :=
  if input.oobNotes = "" then
    { probes with promised :=
      (input, none, .unknown "No bearer note to reabsorb." none none) :: probes.promised }
  else
    match probes.inFlight.get input.oobNotes with
    | some existing =>
      { probes with promised := (input, some existing, existing.result) :: probes.promised }
    | none =>
      let probe : Probe := ⟨wallet, input⟩
      { inFlight := probes.inFlight.set input.oobNotes probe
        promised := (input, some probe, probe.result) :: probes.promised }

inductive ProbeEvent
  | call (wallet : WalletAnswers) (input : ReabsorbInput)
  | settles (oobNotes : String)

def probeStep (probes : Probes) : ProbeEvent → Except Empty Probes
  | .call wallet input => .ok (reabsorbBearerNotes probes wallet input)
  | .settles oobNotes => .ok { probes with inFlight := probes.inFlight.erase oobNotes }

def NoProbes (probes : Probes) : Prop := probes = {}

/-! ### What a credit shows -/

variable {delta expected : JsNumber} {e : Rejection} {probe : Probe} {probes : Probes}

theorem ne_nan_of_pos {a : JsNumber} (h : 0 < a) : a ≠ .nan := by
  rintro rfl
  exact JsNumber.not_lt_nan 0 h

theorem mul_two_ne_nan (h : delta ≠ .nan) : delta * 2 ≠ .nan := by
  have htwo : (2 : JsNumber) = .fin ((2 : ℤ) : ℚ) := JsNumber.ofInt_eq_fin (by decide)
  rw [htwo]
  cases delta with
  | nan => exact absurd rfl h
  | posInf => exact fun h => JsNumber.noConfusion h
  | negInf => exact fun h => JsNumber.noConfusion h
  | fin q => exact JsNumber.ofRat_ne_nan _

theorem isThisNotesCredit_iff : isThisNotesCredit delta expected = true ↔
    0 < delta ∧ delta ≤ expected ∧ expected ≤ delta * 2 ∧
      expected - delta ≤ reissueFeeAllowanceMsats expected := by
  unfold isThisNotesCredit
  constructor
  · intro h
    split_ifs at h with hpos hmore hhalf
    rw [not_or, not_not, not_not] at hpos
    have hdelta := ne_nan_of_pos hpos.2
    have hexpected := ne_nan_of_pos hpos.1
    exact ⟨hpos.2, JsNumber.le_of_not_lt hexpected hdelta hmore,
      JsNumber.le_of_not_lt (mul_two_ne_nan hdelta) hexpected hhalf, of_decide_eq_true h⟩
  · rintro ⟨hdelta, hle, hhalf, hfee⟩
    have hexpected := JsNumber.lt_of_lt_of_le hdelta hle
    rw [if_neg (by simp [hdelta, hexpected]), if_neg (JsNumber.not_lt_of_le hle),
      if_neg (JsNumber.not_lt_of_le hhalf)]
    exact decide_eq_true hfee

/-! ### What a verdict of recovery shows -/

def isDefinitive (e : Rejection) : Bool :=
  isForeignFederationError e || isConsumedCreditUnproven e || isNeverValidRejection e

/-- What a verdict of recovery claims: a credit within the bounds of the note's, after an error an
exact one or one of a reissue that was accepted, and no definitive rejection. -/
structure Sound (probe : Probe) (result : ReabsorbResult) : Prop where
  credit : ∀ delta expected before after late, result = .recovered delta expected before after late →
    expected = probe.input.expectedMsats ∧ 0 < delta ∧ delta ≤ expected ∧ expected ≤ delta * 2 ∧
      expected - delta ≤ reissueFeeAllowanceMsats expected
  proven : ∀ delta expected before after late, result = .recovered delta expected before after late →
    ∀ e, probe.wallet.redeemWithRetry = .error e →
      delta = expected ∨ reissueAcceptedByFederation e = true
  definitive : ∀ delta expected before after late,
    result = .recovered delta expected before after late →
      ∀ e, probe.wallet.redeemWithRetry = .error e → isDefinitive e = false

/-- The wallet can tell the notes' federation and both balances, and they moved so much. -/
def Moved (probe : Probe) (delta : JsNumber) : Prop :=
  ∃ parsed before after, probe.wallet.parseNotes = .ok parsed ∧
    isForeignNote parsed.federationId probe.wallet.getFederationId = false ∧
    probe.wallet.balanceBefore = .ok before ∧ probe.wallet.balanceAfter = .ok after ∧
    delta = after - before

/-- The wallet rejects with `null`, and the balances show a credit that is short by a fee. -/
def NullWithShortCredit (probe : Probe) : Prop :=
  probe.wallet.redeemWithRetry = .error .null ∧ ∃ delta, Moved probe delta ∧
    isThisNotesCredit delta probe.input.expectedMsats = true ∧ delta ≠ probe.input.expectedMsats

section Verdicts

variable {parsed : ParsedNotes} {walletFed : Option String} {before after msats : JsNumber}
  {before' : JsNumber} {reading : Option JsNumber} {late : Bool}

theorem cleanVerdict_recovered
    (h : cleanVerdict msats before reading = .recovered delta expected before' after late) :
    reading = some after ∧ delta = after - before ∧ expected = msats ∧
      isThisNotesCredit delta expected = true := by
  unfold cleanVerdict at h
  dsimp only at h
  split at h
  · rename_i after' delta' hcredit
    obtain ⟨rfl, rfl, -, rfl, -⟩ := ReabsorbResult.recovered.inj h
    rw [Option.filter_eq_some_iff, Option.map_some] at hcredit
    exact ⟨rfl, (Option.some.inj hcredit.1).symm, rfl, hcredit.2⟩
  · cases h

theorem thrownVerdict_recovered
    (h : thrownVerdict parsed walletFed e msats before reading =
      .recovered delta expected before' after late) :
    reading = some after ∧ delta = after - before ∧ expected = msats ∧
      lateCreditIsThisNote e delta expected = true ∧ isDefinitive e = false := by
  unfold thrownVerdict at h
  dsimp only at h
  split_ifs at h with hforeign hconsumed hinvalid
  split at h
  · rename_i after' delta' hcredit
    obtain ⟨rfl, rfl, -, rfl, -⟩ := ReabsorbResult.recovered.inj h
    rw [Option.filter_eq_some_iff, Option.map_some] at hcredit
    refine ⟨rfl, (Option.some.inj hcredit.1).symm, rfl, hcredit.2, ?_⟩
    simp [isDefinitive, hforeign, hconsumed, hinvalid]
  · split at h <;> cases h

end Verdicts

theorem result_recovered {before after : JsNumber} {late : Bool}
    (h : probe.result = .recovered delta expected before after late) :
    Moved probe delta ∧ expected = probe.input.expectedMsats ∧
      isThisNotesCredit delta expected = true ∧
      ∀ e, probe.wallet.redeemWithRetry = .error e →
        e = .null ∨ (lateCreditIsThisNote e delta expected = true ∧ isDefinitive e = false) := by
  unfold Probe.result runProbe at h
  split at h
  · cases h
  rename_i parsed hparsed
  split_ifs at h with hforeign
  split at h
  · cases h
  rename_i before' hbefore
  dsimp only at h
  have hmoved {after' : JsNumber} (hafter : probe.wallet.balanceAfter.toOption = some after')
      (hdelta : delta = after' - before') : Moved probe delta :=
    ⟨parsed, before', after', hparsed, Bool.eq_false_iff.mpr hforeign, hbefore,
      toOption_eq_some.mp hafter, hdelta⟩
  split_ifs at h with hthrown
  · obtain ⟨hafter, hdelta, hexpected, hcredit⟩ := cleanVerdict_recovered h
    refine ⟨hmoved hafter hdelta, hexpected, hcredit, fun e he => Or.inl ?_⟩
    rw [he] at hthrown
    exact hthrown
  · obtain ⟨hafter, hdelta, hexpected, hcredit, hopen⟩ := thrownVerdict_recovered h
    refine ⟨hmoved hafter hdelta, hexpected, (Bool.and_eq_true_iff.mp hcredit).1,
      fun e he => Or.inr ?_⟩
    rw [he] at hcredit hopen
    exact ⟨hcredit, hopen⟩

/-- A rejection with `null` passes for a resolve. -/
theorem result_of_null (h : NullWithShortCredit probe) : ∃ delta before after,
    probe.result = .recovered delta probe.input.expectedMsats before after false ∧
      delta ≠ probe.input.expectedMsats := by
  obtain ⟨hnull, delta, ⟨parsed, before, after, hparsed, hforeign, hbefore, hafter, rfl⟩, hcredit,
    hshort⟩ := h
  refine ⟨after - before, before, after, ?_, hshort⟩
  unfold Probe.result runProbe
  rw [hparsed, hnull, hbefore, hafter]
  dsimp only
  rw [hforeign, if_neg Bool.false_ne_true, if_pos rfl]
  unfold cleanVerdict
  simp [Except.toOption, Option.filter, hcredit]

/-- The verdict of a probe is sound unless the wallet rejected with `null` on a short credit. -/
theorem result_sound_iff : Sound probe probe.result ↔ ¬ NullWithShortCredit probe := by
  constructor
  · intro hsound hnull
    obtain ⟨delta, before, after, hresult, hshort⟩ := result_of_null hnull
    rcases hsound.proven _ _ _ _ _ hresult _ hnull.1 with hexact | haccepted
    · exact hshort hexact
    · cases haccepted
  · intro hnot
    refine ⟨?_, ?_, ?_⟩
    · intro delta expected before after late hresult
      obtain ⟨-, hexpected, hcredit, -⟩ := result_recovered hresult
      exact ⟨hexpected, isThisNotesCredit_iff.mp hcredit⟩
    · intro delta expected before after late hresult e he
      obtain ⟨hmoved, rfl, hcredit, hthrown⟩ := result_recovered hresult
      rcases hthrown e he with rfl | ⟨hlate, -⟩
      · by_contra hshort
        exact hnot ⟨he, delta, hmoved, hcredit, fun hexact => hshort (Or.inl hexact)⟩
      · rw [lateCreditIsThisNote, Bool.and_eq_true, Bool.or_eq_true] at hlate
        exact hlate.2.imp_left JsNumber.eq_of_strictEq
    · intro delta expected before after late hresult e he
      obtain ⟨-, -, -, hthrown⟩ := result_recovered hresult
      rcases hthrown e he with rfl | ⟨-, hopen⟩
      · decide +kernel
      · exact hopen

/-! ### Runs of probes -/

/-- A call for notes waits for a probe of these notes. -/
structure Promises (probes : Probes) : Prop where
  inFlight : ∀ notes probe, probes.inFlight.get notes = some probe → probe.input.oobNotes = notes
  promised : ∀ input probe result, (input, some probe, result) ∈ probes.promised →
    probe.input.oobNotes = input.oobNotes ∧ result = probe.result
  refused : ∀ input result, (input, none, result) ∈ probes.promised →
    result = .unknown "No bearer note to reabsorb." none none

theorem Promises.call (h : Promises probes) (wallet : WalletAnswers) (input : ReabsorbInput) :
    Promises (reabsorbBearerNotes probes wallet input) := by
  unfold reabsorbBearerNotes
  split_ifs with hempty
  · refine ⟨h.inFlight, fun other probe result hmem => ?_, fun other result hmem => ?_⟩
    · rcases List.mem_cons.mp hmem with heq | hmem
      · cases heq
      · exact h.promised other probe result hmem
    · rcases List.mem_cons.mp hmem with heq | hmem
      · exact (Prod.mk.inj (Prod.mk.inj heq).2).2
      · exact h.refused other result hmem
  · have hpromised {inFlight : OrderedMap String Probe} {probe : Probe}
        (hflight : ∀ notes probe, inFlight.get notes = some probe → probe.input.oobNotes = notes)
        (hnotes : probe.input.oobNotes = input.oobNotes) :
        Promises ⟨inFlight, (input, some probe, probe.result) :: probes.promised⟩ := by
      refine ⟨hflight, fun other probe' result hmem => ?_, fun other result hmem => ?_⟩
      · rcases List.mem_cons.mp hmem with heq | hmem
        · obtain ⟨rfl, hrest⟩ := Prod.mk.inj heq
          obtain ⟨hprobe, rfl⟩ := Prod.mk.inj hrest
          obtain rfl := Option.some.inj hprobe
          exact ⟨hnotes, rfl⟩
        · exact h.promised other probe' result hmem
      · rcases List.mem_cons.mp hmem with heq | hmem
        · cases heq
        · exact h.refused other result hmem
    split
    · rename_i existing hget
      exact hpromised h.inFlight (h.inFlight _ _ hget)
    · refine hpromised (fun notes probe hprobe => ?_) rfl
      rw [OrderedMap.get_set] at hprobe
      split_ifs at hprobe with hnotes
      · rw [← Option.some.inj hprobe, hnotes]
      · exact h.inFlight notes probe hprobe

theorem promises_of_run (h : Reachable probeStep NoProbes probes) : Promises probes := by
  refine h.invariant (I := Promises) ?_ ?_
  · rintro _ rfl
    refine ⟨fun notes probe hprobe => ?_, fun _ _ _ h => absurd h List.not_mem_nil,
      fun _ _ h => absurd h List.not_mem_nil⟩
    cases (OrderedMap.get_empty notes).symm.trans hprobe
  · intro probes event probes' hinv hstep
    cases event with
    | call wallet input =>
      obtain rfl := Except.ok.inj hstep
      exact hinv.call wallet input
    | settles notes =>
      obtain rfl := Except.ok.inj hstep
      refine ⟨fun other probe hprobe => ?_, hinv.promised, hinv.refused⟩
      rw [OrderedMap.get_erase] at hprobe
      split_ifs at hprobe
      exact hinv.inFlight other probe hprobe

/-- A call for notes of 50000 sats whose wallet answers so to the redemption, and whose balance moves
by so many msats. -/
def sampleProbe (redeem : Except Rejection Unit) (moved : ℕ) : Probe where
  wallet := {
    parseNotes := .ok ⟨50000000, none⟩
    getFederationId := some "fed"
    balanceBefore := .ok 0
    redeemWithRetry := redeem
    balanceAfter := .ok (.ofInt moved) }
  input := ⟨"notes", 50000000⟩

theorem sampleProbe_promised (redeem : Except Rejection Unit) (moved : ℕ) :
    ∃ probes, Reachable probeStep NoProbes probes ∧
      ((sampleProbe redeem moved).input, some (sampleProbe redeem moved),
        (sampleProbe redeem moved).result) ∈ probes.promised :=
  ⟨_, Reachable.next (.start rfl)
    (e := .call (sampleProbe redeem moved).wallet (sampleProbe redeem moved).input) rfl,
    List.mem_cons_self⟩

end ChamaEscrow.Reabsorb
