import ChamaEscrow.Js.Value
import ChamaEscrow.Library.Machine
import ChamaEscrow.Library.OrderedMap

/-!
# The lock of the mint operations

The in-process queue that `withMintLock` falls back to where the browser has no locks of its own
(`mint-mutex.ts`).  A call takes the tail of its lock name, the promise that the calls before it are
through, and leaves `prev.then(() => gate)` as the new tail; then it waits for the promise it took,
with a timer and perhaps a signal that make it give up, runs its function, and at last resolves its
gate.  Promises settle one step at a time, in any order that their dependencies allow.

* `Queued.released_of_settled`: behind a settled tail every earlier call of the name has released.
* `mint_lock_fair`: at most one function runs, functions start in call order, a call that gave up
  never runs, and once the calls before it are over a waiting call can start.
-/

namespace ChamaEscrow

open Js Library

/-! ### The queue -/

def mintLockAcquireTimeoutMs : ℕ := 120000

/-- What `waitForTurn` rejects with. -/
structure MintLockError where
  code : String
  message : String
  deriving DecidableEq

def mintLockTimeoutError (label : String) (timeoutMs : ℕ) : MintLockError where
  code := "MINT_LOCK_TIMEOUT"
  message := "Your wallet is busy with another operation (possibly in another tab) — \"" ++ label ++
    "\" gave up waiting after " ++ toString ((timeoutMs + 500) / 1000) ++
    "s. No sats moved in this operation. Close other Chama tabs and retry."

def mintLockAbortError (label : String) : MintLockError where
  code := "MINT_LOCK_ABORTED"
  message := "\"" ++ label ++ "\" was cancelled before the wallet lock was acquired. No sats moved."

/-- How the body of a call ends: its function settled, or the wait for the lock was given up. -/
inductive MintOutcome
  | fulfilled
  | rejected
  | gaveUp (error : MintLockError)
  deriving DecidableEq

/-- Where a call stands: `waitForTurn` is pending, or it resolved, or the function runs, or the body
ended, or the `finally` block resolved the gate. -/
inductive MintStage
  | waiting
  | granted
  | running
  | ended (outcome : MintOutcome)
  | released (outcome : MintOutcome)
  deriving DecidableEq

/-- A call of `withMintLock`.  `prev` names the call whose tail it took, `none` a resolved promise;
`linked` tells whether its own tail has settled. -/
structure MintCall where
  name : String
  label : String
  timeoutMs : ℕ
  signal : Bool
  prev : Option ℕ
  stage : MintStage
  linked : Bool
  deriving DecidableEq

/-- The module's state: the scope of the lock name, the tails, and the calls in their order. -/
structure MintLocks where
  mintLockScope : String := "default"
  fallbackTails : OrderedMap String ℕ := .empty
  calls : List MintCall := []

def MintLocks.mintLockName (s : MintLocks) : String := "chama-mint-op:" ++ s.mintLockScope

/-- What can happen to a call. -/
inductive MintAction
  | timeout
  | abort
  | turn
  | start
  | settle (rejected : Bool)
  | release
  | link
  deriving DecidableEq

/-- One step of a call; `settled` tells whether the promise it waits for has settled. -/
def MintCall.act (settled : Bool) (c : MintCall) : MintAction → Option MintCall
  | .timeout =>
    if c.stage = .waiting then
      some { c with stage := .ended (.gaveUp (mintLockTimeoutError c.label c.timeoutMs)) }
    else none
  | .abort =>
    if c.stage = .waiting && c.signal then
      some { c with stage := .ended (.gaveUp (mintLockAbortError c.label)) }
    else none
  | .turn => if c.stage = .waiting && settled then some { c with stage := .granted } else none
  | .start => if c.stage = .granted then some { c with stage := .running } else none
  | .settle rejected =>
    if c.stage = .running then
      some { c with stage := .ended (if rejected then .rejected else .fulfilled) }
    else none
  | .release =>
    match c.stage with
    | .ended outcome => some { c with stage := .released outcome }
    | _ => none
  | .link =>
    match c.stage with
    | .released _ => if settled && !c.linked then some { c with linked := true } else none
    | _ => none

def MintLocks.settled (s : MintLocks) : Option ℕ → Bool
  | none => true
  | some p => s.calls[p]?.any MintCall.linked

inductive MintEvent
  | setMintLockScope (scope : Option String)
  | withMintLock (label : String) (acquireTimeoutMs : Option ℕ) (signal : Option Bool)
  | act (i : ℕ) (action : MintAction)

/-- The synchronous part of `withMintLock`; a signal that has aborted already makes `waitForTurn`
throw at once. -/
def MintLocks.enter (s : MintLocks) (label : String) (acquireTimeoutMs : Option ℕ)
    (signal : Option Bool) : MintLocks :=
  let call : MintCall :=
    { name := s.mintLockName
      label := label
      timeoutMs := acquireTimeoutMs.getD mintLockAcquireTimeoutMs
      signal := signal.isSome
      prev := s.fallbackTails.get s.mintLockName
      stage := if signal = some true then .ended (.gaveUp (mintLockAbortError label)) else .waiting
      linked := false }
  { s with
    fallbackTails := s.fallbackTails.set s.mintLockName s.calls.length
    calls := s.calls ++ [call] }

/-- `setMintLockScope`. -/
def MintLocks.setScope (s : MintLocks) (scope : Option String) : MintLocks :=
  let clean := trim (scope.getD "")
  { s with mintLockScope := if clean = "" then "default" else clean }

def mintStep (s : MintLocks) : MintEvent → Except Unit MintLocks
  | .setMintLockScope scope => .ok (s.setScope scope)
  | .withMintLock label acquireTimeoutMs signal => .ok (s.enter label acquireTimeoutMs signal)
  | .act i action =>
    match s.calls[i]?.bind fun c => c.act (s.settled c.prev) action with
    | some c => .ok { s with calls := s.calls.set i c }
    | none => .error ()

/-- Before the first call. -/
def MintLocks.Fresh (s : MintLocks) : Prop := s.fallbackTails = .empty ∧ s.calls = []

def MintStage.outcome : MintStage → Option MintOutcome
  | .ended outcome | .released outcome => some outcome
  | _ => none

/-- Whether the lock was granted to a call. -/
def MintStage.served : MintStage → Bool
  | .waiting => false
  | .granted | .running => true
  | .ended outcome | .released outcome =>
    match outcome with
    | .gaveUp _ => false
    | _ => true

/-! ### What a step does -/

variable {s s' : MintLocks} {c c' : MintCall} {i j : ℕ}

inductive MintMove (settled : Bool) (c : MintCall) : MintCall → Prop
  | giveUp (hstage : c.stage = .waiting) (error : MintLockError) :
    MintMove settled c { c with stage := .ended (.gaveUp error) }
  | turn (hstage : c.stage = .waiting) (hsettled : settled = true) :
    MintMove settled c { c with stage := .granted }
  | start (hstage : c.stage = .granted) : MintMove settled c { c with stage := .running }
  | settle (hstage : c.stage = .running) (rejected : Bool) :
    MintMove settled c { c with stage := .ended (if rejected then .rejected else .fulfilled) }
  | release {outcome : MintOutcome} (hstage : c.stage = .ended outcome) :
    MintMove settled c { c with stage := .released outcome }
  | link {outcome : MintOutcome} (hstage : c.stage = .released outcome)
    (hsettled : settled = true) : MintMove settled c { c with linked := true }

variable {settled : Bool}

theorem MintCall.act_move {action : MintAction}
    (h : c.act settled action = some c') : MintMove settled c c' := by
  unfold MintCall.act at h
  cases action with
  | timeout =>
    dsimp only at h
    split_ifs at h with hstage
    obtain rfl := Option.some.inj h
    exact .giveUp hstage _
  | abort =>
    dsimp only at h
    split_ifs at h with hstage
    rw [Bool.and_eq_true, decide_eq_true_eq] at hstage
    obtain rfl := Option.some.inj h
    exact .giveUp hstage.1 _
  | turn =>
    dsimp only at h
    split_ifs at h with hstage
    rw [Bool.and_eq_true, decide_eq_true_eq] at hstage
    obtain rfl := Option.some.inj h
    exact .turn hstage.1 hstage.2
  | start =>
    dsimp only at h
    split_ifs at h with hstage
    obtain rfl := Option.some.inj h
    exact .start hstage
  | settle rejected =>
    obtain ⟨hstage, hsome⟩ := Option.ite_none_right_eq_some.mp h
    obtain rfl := Option.some.inj hsome
    exact .settle hstage rejected
  | release =>
    dsimp only at h
    split at h
    · obtain rfl := Option.some.inj h
      exact .release (by assumption)
    · cases h
  | link =>
    dsimp only at h
    split at h
    · split_ifs at h with hsettled
      rw [Bool.and_eq_true] at hsettled
      obtain rfl := Option.some.inj h
      exact .link (by assumption) hsettled.1
    · cases h

theorem MintMove.name (h : MintMove settled c c') : c'.name = c.name := by
  cases h <;> rfl

theorem MintMove.prev (h : MintMove settled c c') : c'.prev = c.prev := by
  cases h <;> rfl

theorem MintMove.linked (h : MintMove settled c c') (hlinked : c.linked = true) :
    c'.linked = true := by
  cases h with
  | link => rfl
  | _ => exact hlinked

theorem MintMove.of_linked (h : MintMove settled c c') (hlinked : c'.linked = true) :
    c.linked = true ∨ (∃ outcome, c'.stage = .released outcome) ∧ settled = true := by
  cases h with
  | link hstage hsettled => exact Or.inr ⟨⟨_, hstage⟩, hsettled⟩
  | _ => exact Or.inl hlinked

theorem MintMove.released (h : MintMove settled c c') {outcome : MintOutcome}
    (hreleased : c.stage = .released outcome) : c'.stage = .released outcome := by
  cases h with
  | link => exact hreleased
  | giveUp hstage | turn hstage | start hstage | settle hstage | release hstage =>
    cases hstage.symm.trans hreleased

/-- A body that has ended does not end in another way. -/
theorem MintMove.outcome (h : MintMove settled c c') {outcome : MintOutcome}
    (hended : c.stage.outcome = some outcome) : c'.stage.outcome = some outcome := by
  cases h with
  | link => exact hended
  | release hstage =>
    rw [hstage] at hended
    exact hended
  | giveUp hstage | turn hstage | start hstage | settle hstage =>
    rw [hstage] at hended
    cases hended

/-- The state after a step of the call `i`. -/
def MintLocks.put (s : MintLocks) (i : ℕ) (c : MintCall) : MintLocks :=
  { s with calls := s.calls.set i c }

theorem mintStep_cases {e : MintEvent} (h : mintStep s e = .ok s') :
    (∃ scope, s' = s.setScope scope) ∨
      (∃ label acquireTimeoutMs signal, s' = s.enter label acquireTimeoutMs signal) ∨
      ∃ i action c c', e = .act i action ∧ s.calls[i]? = some c ∧
        c.act (s.settled c.prev) action = some c' ∧ s' = s.put i c' := by
  cases e with
  | setMintLockScope scope => exact Or.inl ⟨scope, (Except.ok.inj h).symm⟩
  | withMintLock label acquireTimeoutMs signal =>
    exact Or.inr (Or.inl ⟨label, acquireTimeoutMs, signal, (Except.ok.inj h).symm⟩)
  | act i action =>
    unfold mintStep at h
    dsimp only at h
    split at h
    · rename_i c' hc'
      obtain ⟨c, hc, hact⟩ := Option.bind_eq_some_iff.mp hc'
      exact Or.inr (Or.inr ⟨i, action, c, c', rfl, hc, hact, (Except.ok.inj h).symm⟩)
    · cases h

theorem MintLocks.put_calls (hc : s.calls[i]? = some c) (c' : MintCall) (k : ℕ) :
    (s.put i c').calls[k]? = if k = i then some c' else s.calls[k]? := by
  have hlt := (List.getElem?_eq_some_iff.mp hc).1
  unfold MintLocks.put
  rw [List.getElem?_set]
  split_ifs with h₁ h₂ h₃
  · rfl
  · exact absurd h₁.symm h₂
  · exact absurd h₃.symm h₁
  · rfl

/-! ### The chain of tails -/

/-- The last place before `n` at which a name stands. -/
def LastOf (names : List String) (name : String) (n : ℕ) : Option ℕ → Prop
  | none => ∀ k < n, names[k]? ≠ some name
  | some p => p < n ∧ names[p]? = some name ∧ ∀ k, p < k → k < n → names[k]? ≠ some name

variable {p : Option ℕ} {name : String}

theorem LastOf.append {names : List String} {n : ℕ}
    (h : LastOf names name n p) (hn : n ≤ names.length) (more : List String) :
    LastOf (names ++ more) name n p := by
  have hsame {k : ℕ} (hk : k < n) : (names ++ more)[k]? = names[k]? :=
    List.getElem?_append_left (hk.trans_le hn)
  cases p with
  | none => exact fun k hk => (hsame hk).symm ▸ h k hk
  | some p =>
    obtain ⟨hlt, hp, hlast⟩ := h
    exact ⟨hlt, (hsame hlt).trans hp, fun k hpk hk => (hsame hk).symm ▸ hlast k hpk hk⟩

theorem LastOf.succ {names : List String} {name other : String}
    (h : LastOf names name names.length p) (hne : other ≠ name) :
    LastOf (names ++ [other]) name (names.length + 1) p := by
  have hold := h.append le_rfl [other]
  have hnew : (names ++ [other])[names.length]? ≠ some name := by
    rw [List.getElem?_append_right le_rfl, Nat.sub_self]
    intro h
    exact hne (Option.some.inj h)
  have hstep {k : ℕ} (hk : k < names.length + 1) :
      k < names.length ∨ k = names.length := by omega
  cases p with
  | none =>
    intro k hk
    rcases hstep hk with hlt | rfl
    · exact hold k hlt
    · exact hnew
  | some p =>
    obtain ⟨hlt, hp, hlast⟩ := hold
    refine ⟨by omega, hp, fun k hpk hk => ?_⟩
    rcases hstep hk with hlt | rfl
    · exact hlast k hpk hlt
    · exact hnew

def MintLocks.names (s : MintLocks) : List String := s.calls.map MintCall.name

theorem MintLocks.names_eq (hc : s.calls[i]? = some c) : s.names[i]? = some c.name := by
  unfold MintLocks.names
  rw [List.getElem?_map, hc]
  rfl

theorem MintLocks.names_put (hc : s.calls[i]? = some c) (hname : c'.name = c.name) :
    (s.put i c').names = s.names := by
  apply List.ext_getElem?
  intro k
  unfold MintLocks.names
  rw [List.getElem?_map, List.getElem?_map, MintLocks.put_calls hc]
  split_ifs with hk
  · rw [hk, hc, Option.map_some, Option.map_some, hname]
  · rfl

/-- What holds of the queue after every step: a tail belongs to the last call of its name, a call
took the tail of the last one before it, a tail settles when its call has released and the tail
before it has settled, and the lock is granted behind a settled tail only. -/
structure MintLocks.Queued (s : MintLocks) : Prop where
  tail : ∀ name, LastOf s.names name s.calls.length (s.fallbackTails.get name)
  prev : ∀ (i : ℕ) (c : MintCall), s.calls[i]? = some c → LastOf s.names c.name i c.prev
  linked : ∀ (i : ℕ) (c : MintCall), s.calls[i]? = some c → c.linked = true →
    (∃ outcome, c.stage = .released outcome) ∧ s.settled c.prev = true
  served : ∀ (i : ℕ) (c : MintCall), s.calls[i]? = some c → c.stage.served = true →
    s.settled c.prev = true

theorem settled_some {p : ℕ} (h : s.settled (some p) = true) :
    ∃ c, s.calls[p]? = some c ∧ c.linked = true := (Option.any_eq_true _ _).mp h

theorem MintLocks.Queued.released_of_settled (hs : s.Queued) {n : ℕ}
    (hlast : LastOf s.names name n p) (hsettled : s.settled p = true) (hi : i < n)
    (hc : s.calls[i]? = some c) (hname : c.name = name) :
    ∃ outcome, c.stage = .released outcome := by
  induction n using Nat.strong_induction_on generalizing p with
  | _ n ih =>
    cases p with
    | none => exact absurd (hname ▸ MintLocks.names_eq hc) (hlast i hi)
    | some p =>
      obtain ⟨hp, hplace, hafter⟩ := hlast
      obtain ⟨a, ha, hlinked⟩ := settled_some hsettled
      obtain ⟨hreleased, hprev⟩ := hs.linked p a ha hlinked
      have haname : a.name = name :=
        Option.some.inj ((MintLocks.names_eq ha).symm.trans hplace)
      rcases lt_trichotomy i p with hlt | rfl | hgt
      · exact ih p hp (haname ▸ hs.prev p a ha) hprev hlt
      · obtain rfl := Option.some.inj (hc.symm.trans ha)
        exact hreleased
      · exact absurd (hname ▸ MintLocks.names_eq hc) (hafter i hgt hi)

/-! ### Every step keeps the queue -/

theorem MintLocks.Queued.fresh (h : s.Fresh) : s.Queued := by
  obtain ⟨htails, hcalls⟩ := h
  have hnone {k : ℕ} : s.calls[k]? = none := by rw [hcalls]; rfl
  refine ⟨fun name => ?_, fun i c hc => ?_, fun i c hc => ?_, fun i c hc => ?_⟩
  · rw [htails, OrderedMap.get_empty, hcalls]
    exact fun k hk => absurd hk (Nat.not_lt_zero k)
  all_goals
    rw [hnone] at hc
    cases hc

theorem MintLocks.Queued.setScope (hs : s.Queued) (scope : Option String) :
    (s.setScope scope).Queued :=
  ⟨hs.tail, hs.prev, hs.linked, hs.served⟩

theorem MintLocks.enter_calls {label : String} {acquireTimeoutMs : Option ℕ} {signal : Option Bool}
    (hi : i < s.calls.length) :
    (s.enter label acquireTimeoutMs signal).calls[i]? = s.calls[i]? :=
  List.getElem?_append_left hi

theorem MintLocks.settled_enter {label : String} {acquireTimeoutMs : Option ℕ}
    {signal : Option Bool} (h : s.settled p = true) :
    (s.enter label acquireTimeoutMs signal).settled p = true := by
  cases p with
  | none => rfl
  | some p =>
    obtain ⟨c, hc, hlinked⟩ := settled_some h
    have hlt := (List.getElem?_eq_some_iff.mp hc).1
    exact (Option.any_eq_true _ _).mpr ⟨c, (MintLocks.enter_calls hlt).trans hc, hlinked⟩

theorem MintLocks.Queued.enter (hs : s.Queued) (label : String) (acquireTimeoutMs : Option ℕ)
    (signal : Option Bool) : (s.enter label acquireTimeoutMs signal).Queued := by
  set s' := s.enter label acquireTimeoutMs signal with hs'
  have hlength : s.names.length = s.calls.length := List.length_map _
  have hnames : s'.names = s.names ++ [s.mintLockName] := List.map_append
  have hcalls : s'.calls.length = s.calls.length + 1 := by
    rw [hs', MintLocks.enter, List.length_append, List.length_singleton]
  -- The new call waits behind the tail that its name had.
  have hnew {c : MintCall} (hc : s'.calls[s.calls.length]? = some c) :
      c.name = s.mintLockName ∧ c.prev = s.fallbackTails.get s.mintLockName ∧
        c.linked = false ∧ c.stage.served = false := by
    rw [hs', MintLocks.enter, List.getElem?_append_right le_rfl, Nat.sub_self] at hc
    obtain rfl := Option.some.inj hc
    refine ⟨rfl, rfl, rfl, ?_⟩
    dsimp only
    split_ifs <;> rfl
  have hcases {i : ℕ} {c : MintCall} (hc : s'.calls[i]? = some c) :
      s.calls[i]? = some c ∨ i = s.calls.length := by
    have hlt := (List.getElem?_eq_some_iff.mp hc).1
    rw [hcalls] at hlt
    rcases (Nat.lt_succ_iff_lt_or_eq.mp hlt) with hold | heq
    · exact Or.inl ((MintLocks.enter_calls hold).symm.trans hc)
    · exact Or.inr heq
  refine ⟨fun name => ?_, fun i c hc => ?_, fun i c hc hlinked => ?_, fun i c hc hserved => ?_⟩
  · rw [hnames, hcalls]
    have hget : s'.fallbackTails.get name =
        if name = s.mintLockName then some s.calls.length else s.fallbackTails.get name :=
      OrderedMap.get_set _ _ _ _
    rw [hget]
    split_ifs with hname
    · refine ⟨Nat.lt_succ_self _, ?_, fun k hlast hk => absurd hk (by omega)⟩
      rw [← hlength, List.getElem?_append_right le_rfl, Nat.sub_self, hname]
      rfl
    · rw [← hlength]
      refine LastOf.succ ?_ (Ne.symm hname)
      rw [hlength]
      exact hs.tail name
  · rw [hnames]
    rcases hcases hc with hold | rfl
    · have hlt := (List.getElem?_eq_some_iff.mp hold).1
      exact (hs.prev i c hold).append (hlength ▸ hlt.le) _
    · obtain ⟨hname, hprev, -, -⟩ := hnew hc
      rw [hname, hprev]
      exact (hs.tail s.mintLockName).append hlength.ge _
  · rcases hcases hc with hold | rfl
    · obtain ⟨hreleased, hsettled⟩ := hs.linked i c hold hlinked
      exact ⟨hreleased, MintLocks.settled_enter hsettled⟩
    · obtain ⟨-, -, hunlinked, -⟩ := hnew hc
      rw [hunlinked] at hlinked
      cases hlinked
  · rcases hcases hc with hold | rfl
    · exact MintLocks.settled_enter (hs.served i c hold hserved)
    · obtain ⟨-, -, -, hwaits⟩ := hnew hc
      rw [hwaits] at hserved
      cases hserved

theorem MintLocks.settled_put (hc : s.calls[i]? = some c)
    (hmove : MintMove settled c c') (h : s.settled p = true) : (s.put i c').settled p = true := by
  cases p with
  | none => rfl
  | some p =>
    obtain ⟨a, ha, hlinked⟩ := settled_some h
    refine (Option.any_eq_true _ _).mpr ?_
    rw [MintLocks.put_calls hc]
    split_ifs with hp
    · rw [hp, hc] at ha
      obtain rfl := Option.some.inj ha
      exact ⟨c', rfl, hmove.linked hlinked⟩
    · exact ⟨a, ha, hlinked⟩

theorem MintLocks.Queued.put (hs : s.Queued) (hc : s.calls[i]? = some c)
    (hmove : MintMove (s.settled c.prev) c c') : (s.put i c').Queued := by
  have hnames := MintLocks.names_put hc hmove.name
  have hcalls : (s.put i c').calls.length = s.calls.length := List.length_set
  have hcases {k : ℕ} {a : MintCall} (ha : (s.put i c').calls[k]? = some a) :
      s.calls[k]? = some a ∨ (k = i ∧ a = c') := by
    rw [MintLocks.put_calls hc] at ha
    split_ifs at ha with hk
    · exact Or.inr ⟨hk, (Option.some.inj ha).symm⟩
    · exact Or.inl ha
  have hkeep {p : Option ℕ} (h : s.settled p = true) : (s.put i c').settled p = true :=
    MintLocks.settled_put hc hmove h
  refine ⟨fun name => ?_, fun k a ha => ?_, fun k a ha hlinked => ?_, fun k a ha hserved => ?_⟩
  · rw [hnames, hcalls]
    exact hs.tail name
  · rw [hnames]
    rcases hcases ha with hold | ⟨rfl, rfl⟩
    · exact hs.prev k a hold
    · rw [hmove.name, hmove.prev]
      exact hs.prev k c hc
  · rcases hcases ha with hold | ⟨rfl, rfl⟩
    · obtain ⟨hreleased, hsettled⟩ := hs.linked k a hold hlinked
      exact ⟨hreleased, hkeep hsettled⟩
    · rw [hmove.prev]
      rcases hmove.of_linked hlinked with hlinked | ⟨hreleased, hsettled⟩
      · obtain ⟨⟨outcome, hreleased⟩, hsettled⟩ := hs.linked k c hc hlinked
        exact ⟨⟨outcome, hmove.released hreleased⟩, hkeep hsettled⟩
      · exact ⟨hreleased, hkeep hsettled⟩
  · rcases hcases ha with hold | ⟨rfl, rfl⟩
    · exact hkeep (hs.served k a hold hserved)
    · refine hkeep ?_
      rw [hmove.prev]
      cases hmove with
      | giveUp => cases hserved
      | turn hstage hsettled => exact hsettled
      | link hstage hsettled => exact hsettled
      | start hstage => exact hs.served k c hc (by rw [hstage]; rfl)
      | settle hstage => exact hs.served k c hc (by rw [hstage]; rfl)
      | release hstage => exact hs.served k c hc (by rw [hstage]; exact hserved)

theorem MintLocks.Queued.step {e : MintEvent} (hs : s.Queued) (h : mintStep s e = .ok s') :
    s'.Queued := by
  rcases mintStep_cases h with ⟨scope, rfl⟩ | ⟨label, acquireTimeoutMs, signal, rfl⟩ |
    ⟨i, action, c, c', -, hc, hact, rfl⟩
  · exact hs.setScope scope
  · exact hs.enter label acquireTimeoutMs signal
  · exact hs.put hc (MintCall.act_move hact)

theorem MintLocks.queued (h : Reachable mintStep MintLocks.Fresh s) : s.Queued :=
  h.invariant (fun _ => MintLocks.Queued.fresh) fun _ _ _ => MintLocks.Queued.step

/-! ### Exclusion and order -/

theorem MintLocks.Queued.released_before (hs : s.Queued) {a b : MintCall}
    (hb : s.calls[j]? = some b) (hserved : b.stage.served = true) (hij : i < j)
    (ha : s.calls[i]? = some a) (hname : a.name = b.name) :
    ∃ outcome, a.stage = .released outcome :=
  hs.released_of_settled (hs.prev j b hb) (hs.served j b hb hserved) hij ha hname

theorem MintLocks.Queued.running_unique (hs : s.Queued) {a b : MintCall}
    (ha : s.calls[i]? = some a) (hb : s.calls[j]? = some b) (hname : a.name = b.name)
    (hrunning : a.stage = .running) (hrunning' : b.stage = .running) : i = j := by
  rcases lt_trichotomy i j with hlt | heq | hgt
  · obtain ⟨_, hreleased⟩ := hs.released_before hb (by rw [hrunning']; rfl) hlt ha hname
    cases hrunning.symm.trans hreleased
  · exact heq
  · obtain ⟨_, hreleased⟩ := hs.released_before ha (by rw [hrunning]; rfl) hgt hb hname.symm
    cases hrunning'.symm.trans hreleased

theorem MintLocks.Queued.released_of_start (hs : s.Queued) {b : MintCall}
    (hb : s.calls[j]? = some b) (hstart : mintStep s (.act j .start) = .ok s') (hij : i < j)
    {a : MintCall} (ha : s.calls[i]? = some a) (hname : a.name = b.name) :
    ∃ outcome, a.stage = .released outcome := by
  refine hs.released_before hb ?_ hij ha hname
  unfold mintStep at hstart
  dsimp only at hstart
  rw [hb, Option.bind_some, MintCall.act] at hstart
  by_cases hgranted : b.stage = .granted
  · rw [hgranted]
    rfl
  · rw [if_neg hgranted] at hstart
    cases hstart

theorem MintLocks.outcome_stays {outcome : MintOutcome} (hc : s.calls[i]? = some c)
    (hended : c.stage.outcome = some outcome) (h : Reachable mintStep (· = s) s') :
    ∃ c', s'.calls[i]? = some c' ∧ c'.stage.outcome = some outcome := by
  refine h.invariant (I := fun t => ∃ c', t.calls[i]? = some c' ∧
    c'.stage.outcome = some outcome) ?_ ?_
  · rintro t rfl
    exact ⟨c, hc, hended⟩
  · rintro t e t' ⟨a, ha, houtcome⟩ hstep
    rcases mintStep_cases hstep with ⟨scope, rfl⟩ | ⟨label, acquireTimeoutMs, signal, rfl⟩ |
      ⟨k, action, b, b', -, hb, hact, rfl⟩
    · exact ⟨a, ha, houtcome⟩
    · have hlt := (List.getElem?_eq_some_iff.mp ha).1
      exact ⟨a, (MintLocks.enter_calls hlt).trans ha, houtcome⟩
    · rw [MintLocks.put_calls hb]
      split_ifs with hk
      · rw [hk, hb] at ha
        obtain rfl := Option.some.inj ha
        exact ⟨b', rfl, (MintCall.act_move hact).outcome houtcome⟩
      · exact ⟨a, ha, houtcome⟩

/-! ### The lock comes free -/

/-- The steps by which the lock passes on to the call `j`: gates and tails settle, and the call
itself gets its turn. -/
def MintEvent.passesTo (j : ℕ) : MintEvent → Bool
  | .act k action =>
    match action with
    | .release | .link => true
    | .turn | .start => k = j
    | _ => false
  | _ => false

/-- The states reached while the lock passes on to the call `j`. -/
def PassesTo (j : ℕ) (s : MintLocks) : MintLocks → Prop :=
  Run mintStep (· = s) fun _ e => e.passesTo j = true

theorem mintStep_act {action : MintAction} (hc : s.calls[i]? = some c)
    (hact : c.act (s.settled c.prev) action = some c') :
    mintStep s (.act i action) = .ok (s.put i c') := by
  unfold mintStep
  dsimp only
  rw [hc, Option.bind_some, hact]
  rfl

theorem PassesTo.queued {t : MintLocks} (h : PassesTo j s t) (hs : s.Queued) : t.Queued := by
  refine Run.invariant (fun u heq => ?_) (fun _ _ _ _ => MintLocks.Queued.step) h
  rw [heq]
  exact hs

theorem PassesTo.through {t : MintLocks} (h : PassesTo j s t) (hc : t.calls[i]? = some c)
    {outcome : MintOutcome} (hended : c.stage.outcome = some outcome)
    (hsettled : t.settled c.prev = true) :
    ∃ t' c', PassesTo j s t' ∧ t'.calls[i]? = some c' ∧ c'.linked = true ∧ c'.name = c.name ∧
      t'.names = t.names ∧ ∀ k, k ≠ i → t'.calls[k]? = t.calls[k]? := by
  -- The gate first, unless it is open already.
  obtain ⟨t₁, c₁, h₁, hc₁, hstage, hname, hprev, hnames, hothers, hsettled₁⟩ :
      ∃ t₁ c₁, PassesTo j s t₁ ∧ t₁.calls[i]? = some c₁ ∧ c₁.stage = .released outcome ∧
        c₁.name = c.name ∧ c₁.prev = c.prev ∧ t₁.names = t.names ∧
        (∀ k, k ≠ i → t₁.calls[k]? = t.calls[k]?) ∧ t₁.settled c₁.prev = true := by
    cases hstage : c.stage with
    | ended o =>
      rw [hstage] at hended
      obtain rfl := Option.some.inj hended
      have hact : c.act (t.settled c.prev) .release =
          some { c with stage := .released o } := by
        unfold MintCall.act
        rw [hstage]
      have hmove := MintCall.act_move hact
      refine ⟨_, { c with stage := .released o }, h.next rfl (mintStep_act hc hact), ?_, rfl, rfl,
        rfl, MintLocks.names_put hc rfl, fun k hk => ?_, MintLocks.settled_put hc hmove hsettled⟩
      · rw [MintLocks.put_calls hc, if_pos rfl]
      · rw [MintLocks.put_calls hc, if_neg hk]
    | released o =>
      rw [hstage] at hended
      obtain rfl := Option.some.inj hended
      exact ⟨t, c, h, hc, hstage, rfl, rfl, rfl, fun _ _ => rfl, hsettled⟩
    | waiting | granted | running =>
      rw [hstage] at hended
      cases hended
  cases hlinked : c₁.linked with
  | true => exact ⟨t₁, c₁, h₁, hc₁, hlinked, hname, hnames, hothers⟩
  | false =>
    have hact : c₁.act (t₁.settled c₁.prev) .link = some { c₁ with linked := true } := by
      unfold MintCall.act
      rw [hstage, hsettled₁, hlinked]
      rfl
    have hmove := MintCall.act_move hact
    refine ⟨_, { c₁ with linked := true }, h₁.next rfl (mintStep_act hc₁ hact), ?_, rfl, hname,
      (MintLocks.names_put hc₁ hmove.name).trans hnames, fun k hk => ?_⟩
    · rw [MintLocks.put_calls hc₁, if_pos rfl]
    · rw [MintLocks.put_calls hc₁, if_neg hk]
      exact hothers k hk

theorem settled_of_linked {n : ℕ} (hlast : LastOf s.names name n p)
    (h : ∀ (k : ℕ) (a : MintCall), k < n → s.calls[k]? = some a → a.name = name →
      a.linked = true) : s.settled p = true := by
  cases p with
  | none => rfl
  | some p =>
    obtain ⟨hp, hplace, -⟩ := hlast
    unfold MintLocks.names at hplace
    rw [List.getElem?_map, Option.map_eq_some_iff] at hplace
    obtain ⟨a, ha, hname⟩ := hplace
    exact (Option.any_eq_true _ _).mpr ⟨a, ha, h p a hp ha hname⟩

/-- Once the bodies of the calls before `j` have ended, their tails can settle in their order. -/
theorem PassesTo.drain (hs : s.Queued) (hj : j < s.calls.length)
    (hended : ∀ (i : ℕ) (a : MintCall), i < j → s.calls[i]? = some a → a.name = name →
      a.stage.outcome.isSome = true) {n : ℕ} (hn : n ≤ j) :
    ∃ t, PassesTo j s t ∧ t.names = s.names ∧ (∀ k, n ≤ k → t.calls[k]? = s.calls[k]?) ∧
      ∀ (k : ℕ) (a : MintCall), k < n → t.calls[k]? = some a → a.name = name →
        a.linked = true := by
  induction n with
  | zero => exact ⟨s, .start rfl, rfl, fun _ _ => rfl, fun k a hk => absurd hk (Nat.not_lt_zero k)⟩
  | succ n ih =>
    obtain ⟨t, ht, hnames, hlater, hlinked⟩ := ih (by omega)
    obtain ⟨c, hc⟩ : ∃ c, s.calls[n]? = some c :=
      ⟨_, List.getElem?_eq_getElem (by omega : n < s.calls.length)⟩
    have hct := (hlater n le_rfl).trans hc
    by_cases hname : c.name = name
    · obtain ⟨outcome, houtcome⟩ := Option.isSome_iff_exists.mp (hended n c (by omega) hc hname)
      have hsettled : t.settled c.prev = true :=
        settled_of_linked ((ht.queued hs).prev n c hct) fun k a hk ha haname =>
          hlinked k a hk ha (haname.trans hname)
      obtain ⟨t', c', ht', hc', hlinked', -, hnames', hothers⟩ := ht.through hct houtcome hsettled
      refine ⟨t', ht', hnames'.trans hnames, fun k hk => ?_, fun k a hk ha haname => ?_⟩
      · exact (hothers k (by omega)).trans (hlater k (by omega))
      · by_cases hkn : k = n
        · rw [hkn, hc'] at ha
          exact Option.some.inj ha ▸ hlinked'
        · exact hlinked k a (by omega) ((hothers k hkn).symm.trans ha) haname
    · refine ⟨t, ht, hnames, fun k hk => hlater k (by omega), fun k a hk ha haname => ?_⟩
      by_cases hkn : k = n
      · rw [hkn, hct] at ha
        exact absurd (Option.some.inj ha ▸ haname) hname
      · exact hlinked k a (by omega) ha haname

theorem MintLocks.Queued.passes (hs : s.Queued) {b : MintCall} (hb : s.calls[j]? = some b)
    (hwaiting : b.stage = .waiting)
    (hended : ∀ (i : ℕ) (a : MintCall), i < j → s.calls[i]? = some a → a.name = b.name →
      a.stage.outcome.isSome = true) :
    ∃ t b', PassesTo j s t ∧ t.calls[j]? = some b' ∧ b'.stage = .running := by
  have hj := (List.getElem?_eq_some_iff.mp hb).1
  obtain ⟨t, ht, -, hlater, hlinked⟩ := PassesTo.drain hs hj hended le_rfl
  have hbt := (hlater j le_rfl).trans hb
  have hsettled := settled_of_linked ((ht.queued hs).prev j b hbt) hlinked
  have hturn : b.act (t.settled b.prev) .turn = some { b with stage := .granted } := by
    unfold MintCall.act
    rw [hwaiting, hsettled]
    rfl
  have hgranted := ht.next (by simp [MintEvent.passesTo]) (mintStep_act hbt hturn)
  set t₁ := t.put j { b with stage := .granted } with ht₁
  have hb₁ : t₁.calls[j]? = some { b with stage := .granted } := by
    rw [ht₁, MintLocks.put_calls hbt, if_pos rfl]
  have hstart : mintStep t₁ (.act j .start) = .ok (t₁.put j { b with stage := .running }) :=
    mintStep_act hb₁ rfl
  refine ⟨_, { b with stage := .running }, hgranted.next (by simp [MintEvent.passesTo]) hstart, ?_,
    rfl⟩
  rw [MintLocks.put_calls hb₁, if_pos rfl]

/-- The lock is exclusive and fair.  In every state that calls, timeouts, aborts and settlements in
any order lead to: at most one call of a name runs its function; when a call starts its function,
every earlier call of the name has released; a call that gave up never runs its function; whether a
function fulfils or rejects, its call can release at once; and a waiting call gets the lock and
starts by gates and tails alone, as soon as the bodies of the calls before it have ended. -/
theorem mint_lock_fair (h : Reachable mintStep MintLocks.Fresh s) :
    (∀ (i j : ℕ) (a b : MintCall), s.calls[i]? = some a → s.calls[j]? = some b →
      a.name = b.name → a.stage = .running → b.stage = .running → i = j) ∧
    (∀ (i j : ℕ) (a b : MintCall) (s' : MintLocks), s.calls[i]? = some a → s.calls[j]? = some b →
      a.name = b.name → i < j → mintStep s (.act j .start) = .ok s' →
        ∃ outcome, a.stage = .released outcome) ∧
    (∀ (i : ℕ) (a : MintCall) (error : MintLockError) (s' : MintLocks), s.calls[i]? = some a →
      a.stage.outcome = some (.gaveUp error) → Reachable mintStep (· = s) s' →
        ∃ a', s'.calls[i]? = some a' ∧ a'.stage.outcome = some (.gaveUp error)) ∧
    (∀ (i : ℕ) (a : MintCall) (outcome : MintOutcome), s.calls[i]? = some a →
      a.stage = .ended outcome → ∃ s', mintStep s (.act i .release) = .ok s' ∧
        s'.calls[i]? = some { a with stage := .released outcome }) ∧
    (∀ (j : ℕ) (b : MintCall), s.calls[j]? = some b → b.stage = .waiting →
      (∀ (i : ℕ) (a : MintCall), i < j → s.calls[i]? = some a → a.name = b.name →
        a.stage.outcome.isSome = true) →
      ∃ s' b', PassesTo j s s' ∧ s'.calls[j]? = some b' ∧ b'.stage = .running) := by
  have hs := MintLocks.queued h
  refine ⟨fun i j a b ha hb hname hrunning hrunning' => ?_,
    fun i j a b s' ha hb hname hij hstart => ?_, fun i a error s' ha hended hlater => ?_,
    fun i a outcome ha hstage => ?_, fun j b hb hwaiting hended => ?_⟩
  · exact hs.running_unique ha hb hname hrunning hrunning'
  · exact hs.released_of_start hb hstart hij ha hname
  · exact MintLocks.outcome_stays ha hended hlater
  · have hact : a.act (s.settled a.prev) .release =
        some { a with stage := .released outcome } := by
      unfold MintCall.act
      rw [hstage]
    refine ⟨_, mintStep_act ha hact, ?_⟩
    rw [MintLocks.put_calls ha, if_pos rfl]
  · exact hs.passes hb hwaiting hended

/-- Three calls: the function of the first has rejected, the second gave up, the third waits.  The
lock passes on to the third. -/
theorem mint_lock_fair_sample : ∃ s, Reachable mintStep MintLocks.Fresh s ∧
    (s.calls.map MintCall.stage =
      [.ended .rejected, .released (.gaveUp (mintLockTimeoutError "b" 1500)), .waiting]) ∧
    ∃ s' b', PassesTo 2 s s' ∧ s'.calls[2]? = some b' ∧ b'.stage = .running := by
  have hfresh : MintLocks.Fresh {} := ⟨rfl, rfl⟩
  let events : List MintEvent :=
    [.withMintLock "a" none none, .act 0 .turn, .act 0 .start, .withMintLock "b" (some 1500) none,
      .withMintLock "c" none (some false), .act 1 .timeout, .act 1 .release, .act 0 (.settle true)]
  have hrun : (events.foldlM (checked mintStep fun _ _ => true) {}).any (fun s =>
      s.calls.map MintCall.stage =
        [.ended .rejected, .released (.gaveUp (mintLockTimeoutError "b" 1500)), .waiting]) =
      true := by
    decide +kernel
  obtain ⟨s, hs, hstages⟩ := Run.exists_of_checked (C := fun _ _ => True) hfresh _
    (fun _ _ _ => trivial) events hrun
  rw [decide_eq_true_eq] at hstages
  refine ⟨s, hs, hstages, ?_⟩
  obtain ⟨a, b, c, hcalls⟩ : ∃ a b c, s.calls = [a, b, c] := by
    have hlength := congrArg List.length hstages
    rw [List.length_map] at hlength
    exact List.length_eq_three.mp hlength
  rw [hcalls] at hstages
  simp only [List.map_cons, List.map_nil, List.cons.injEq, and_true] at hstages
  obtain ⟨ha, hb, hc⟩ := hstages
  obtain ⟨-, -, -, -, hpasses⟩ := mint_lock_fair hs
  refine hpasses 2 c (by rw [hcalls]; rfl) hc fun i d hi hd _ => ?_
  rw [hcalls] at hd
  match i, hi with
  | 0, _ =>
    obtain rfl := Option.some.inj hd
    rw [ha]
    rfl
  | 1, _ =>
    obtain rfl := Option.some.inj hd
    rw [hb]
    rfl

end ChamaEscrow
