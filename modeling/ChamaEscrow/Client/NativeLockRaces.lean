import ChamaEscrow.Client.NativeLockRecovery

/-!
# Recoveries beside lock flows

The drain of the journal and the settling of one entry both recover an entry that they have just
read.  Within one page they wait for each other and for the lock flows of the same escrow; another
page has the same journal and does not wait.

* `successor_untouched`: recovery never changes an entry that holds other notes than the one it was
  given, as long as no other notes are stashed for an escrow while a recovery is still to write
  there unchecked.
* `successor_noted`: a recovery whose read of the trade fails writes its reason into the entry of
  the notes that another page has spent in the meantime.
-/

namespace ChamaEscrow

open Js Library

/-! ### Flows -/

structure NativeLockDrainSummary where
  attempted : ℕ := 0
  reabsorbed : ℕ := 0
  clearedCommitted : ℕ := 0
  clearedDead : ℕ := 0
  stillPending : ℕ := 0

def NativeLockDrainSummary.count (summary : NativeLockDrainSummary) :
    Except MintError RecoveryOutcome → NativeLockDrainSummary
  | .error _ => { summary with stillPending := summary.stillPending + 1 }
  | .ok outcome =>
    let summary := { summary with attempted := summary.attempted + 1 }
    match outcome with
    | .reabsorbed => { summary with reabsorbed := summary.reabsorbed + 1 }
    | .clearedCommitted => { summary with clearedCommitted := summary.clearedCommitted + 1 }
    | .clearedDeadNotes => { summary with clearedDead := summary.clearedDead + 1 }
    | .kept => { summary with stillPending := summary.stillPending + 1 }
    | .clearedStaleIntent => summary

/-- The entries of the drain's copy: each is read again before it is recovered. -/
def drainNativeLocks : List PendingNativeLock → NativeLockDrainSummary →
    NativeLockProg NativeLockDrainSummary
  | [], summary => return summary
  | snapshot :: rest, summary => do
    match ← nativeLockCall (.getPendingNativeLock snapshot.escrowId) with
    | none => drainNativeLocks rest summary
    | some live =>
      let outcome ← recoverPendingNativeLock false live
      drainNativeLocks rest (summary.count outcome)

/-- `drainPendingNativeLocksInner`. -/
def drainPendingNativeLocks : NativeLockProg NativeLockDrainSummary := do
  let locks ← nativeLockCall .listPendingNativeLocks
  drainNativeLocks locks.values {}

/-- `settlePendingNativeLockInner`; nothing to settle is `none`. -/
def settlePendingNativeLock (ignoreAttemptCap : Bool) (escrowId : String) :
    NativeLockProg (Option (Except MintError RecoveryOutcome)) := do
  match ← nativeLockCall (.getPendingNativeLock escrowId) with
  | none => return none
  | some prior =>
    if prior.stage = .intent then return none
    else
      let outcome ← recoverPendingNativeLock ignoreAttemptCap prior
      return some outcome

/-- What runs recoveries. -/
inductive NativeLockFlow
  | drain
  | settle (ignoreAttemptCap : Bool) (escrowId : String)

def recoverFlow : NativeLockFlow → NativeLockProg Unit
  | .drain => do
    let _ ← drainPendingNativeLocks
    return ()
  | .settle ignoreAttemptCap escrowId => do
    let _ ← settlePendingNativeLock ignoreAttemptCap escrowId
    return ()

/-! ### The journal -/

/-- Every entry knows its slot, and an intent holds no notes. -/
structure WellKept (locks : NativeLocks) : Prop where
  slot : ∀ slot live, locks.get slot = some live → live.escrowId = slot
  intent : ∀ slot live, locks.get slot = some live → live.stage = .intent → live.oobNotes = none

def OtherNotes (entry live : PendingNativeLock) : Prop :=
  ∃ notes notes', entry.notes? = some notes ∧ live.notes? = some notes' ∧ notes' ≠ notes

def Succeeded (entry : PendingNativeLock) (s : Stored NativeLocks) : Prop :=
  ∃ live, (nativeLocks s).get entry.escrowId = some live ∧ OtherNotes entry live

theorem OtherNotes.notes_ne {entry live : PendingNativeLock} (h : OtherNotes entry live) :
    live.oobNotes ≠ entry.oobNotes := by
  obtain ⟨notes, notes', hnotes, hnotes', hne⟩ := h
  intro hsame
  unfold PendingNativeLock.notes? at hnotes hnotes'
  rw [hsame, hnotes] at hnotes'
  exact hne (Option.some.inj hnotes').symm

theorem otherNotes_congr {entry live live' : PendingNativeLock}
    (h : live'.oobNotes = live.oobNotes) :
    OtherNotes entry live' ↔ OtherNotes entry live := by
  unfold OtherNotes PendingNativeLock.notes?
  rw [h]

theorem not_otherNotes_of_none {entry live : PendingNativeLock} (h : live.oobNotes = none) :
    ¬ OtherNotes entry live := by
  rintro ⟨notes, notes', -, hnotes', -⟩
  unfold PendingNativeLock.notes? at hnotes'
  rw [h] at hnotes'
  cases hnotes'

variable {sha256Hex : String → String} {s s' : Stored NativeLocks} {slot : String}

/-- What a call of others puts in a slot that held something else. -/
inductive CallWrite : NativeLockCall → String → Option PendingNativeLock → PendingNativeLock → Prop
  | intent (now : JsNumber) (input : IntentInput) (before : Option PendingNativeLock) :
    CallWrite (.intent now input) input.escrowId before (freshIntent now input)
  | spent (now : JsNumber) (input : SpentInput) (existing before : Option PendingNativeLock) :
    CallWrite (.spent now input) input.escrowId before (spentEntry now input existing)
  | publishAttempted (escrowId : String) (live : PendingNativeLock)
      (hnotes : live.notes?.isSome = true) :
    CallWrite (.publishAttempted escrowId) escrowId (some live)
        { live with stage := .publishAttempted }

variable {f : Faults} {live : PendingNativeLock}

theorem get_update {change : NativeLocks → Option NativeLocks} {P : Prop}
    (h : (nativeLocks (updateNativeLocks f s change).2).get slot = some live)
    (hsame : (nativeLocks s).get slot = some live → P)
    (hchange : ∀ next, change (loadNativeLocks f s) = some next → next.get slot = some live → P) :
    P := by
  rcases updateNativeLocks_stored f s change with hkept | ⟨next, hnext, hvalue⟩
  · rw [hkept] at h
    exact hsame h
  · rw [hvalue] at h
    exact hchange next hnext h

variable {escrowId : String}

theorem get_of_set {entry live : PendingNativeLock}
    (h : ((loadNativeLocks f s).set escrowId entry).get slot = some live) :
    (slot = escrowId ∧ live = entry) ∨ (nativeLocks s).get slot = some live := by
  rw [OrderedMap.get_set] at h
  split_ifs at h with hslot
  · exact Or.inl ⟨hslot, (Option.some.inj h).symm⟩
  · right
    rw [← loadNativeLocks_eq h]
    exact h

variable {g : PendingNativeLock → SlotEdit}

theorem get_of_edit
    (h : (nativeLocks (updateNativeLocks f s (editNativeLock escrowId g)).2).get slot = some live) :
    (nativeLocks s).get slot = some live ∨ slot = escrowId ∧
      ∃ before, (nativeLocks s).get slot = some before ∧ g before = .write live := by
  rcases get_editNativeLock f s escrowId g slot with hsame | ⟨rfl, before, hbefore, hresult⟩
  · exact Or.inl (hsame.symm.trans h)
  · refine Or.inr ⟨rfl, before, hbefore, ?_⟩
    rw [h] at hresult
    cases hg : g before with
    | write entry =>
      rw [hg] at hresult
      cases hresult
      rfl
    | _ =>
      rw [hg] at hresult
      cases hresult

variable {call : NativeLockCall}

theorem call_cases (h : (nativeLocks (call.run f s)).get slot = some live) :
    (nativeLocks s).get slot = some live ∨ CallWrite call slot ((nativeLocks s).get slot) live := by
  cases call with
  | intent now input =>
    refine get_update h Or.inl fun next hnext hlive => ?_
    split_ifs at hnext
    obtain rfl := Option.some.inj hnext
    rcases get_of_set hlive with ⟨rfl, rfl⟩ | hbefore
    · exact Or.inr (.intent now input _)
    · exact Or.inl hbefore
  | spent now input =>
    change (nativeLocks (upgradeNativeLockToSpent f now input s).2).get slot = _ at h
    unfold upgradeNativeLockToSpent at h
    dsimp only at h
    split at h
    · exact Or.inl h
    · refine get_update h Or.inl fun next hnext hlive => ?_
      obtain rfl := Option.some.inj hnext
      rcases get_of_set hlive with ⟨rfl, rfl⟩ | hbefore
      · exact Or.inr (.spent now input _ _)
      · exact Or.inl hbefore
  | publishAttempted escrowId =>
    refine (get_of_edit h).imp_right ?_
    rintro ⟨rfl, before, hbefore, hwrite⟩
    split_ifs at hwrite with hnotes
    cases hwrite
    rw [hbefore]
    exact .publishAttempted slot before hnotes
  | clear escrowId =>
    rcases get_of_edit h with hbefore | ⟨-, before, -, hwrite⟩
    · exact Or.inl hbefore
    · cases hwrite
  | clearIfIntent escrowId =>
    rcases get_of_edit h with hbefore | ⟨-, before, -, hwrite⟩
    · exact Or.inl hbefore
    · split_ifs at hwrite
  | clearAll =>
    change (nativeLocks (clearAllPendingNativeLocks f s)).get slot = _ at h
    unfold clearAllPendingNativeLocks at h
    split_ifs at h
    · exact Or.inl h
    · cases h

/-! ### The journal stays well kept -/

theorem wellKept_call (h : WellKept (nativeLocks s)) : WellKept (nativeLocks (call.run f s)) := by
  constructor
  · intro slot live hlive
    rcases call_cases hlive with hbefore | hwrite
    · exact h.slot slot live hbefore
    · generalize hget : (nativeLocks s).get slot = before at hwrite
      cases hwrite with
      | intent => rfl
      | spent => rfl
      | publishAttempted =>
        have hslot := h.slot slot _ hget
        exact hslot
  · intro slot live hlive hintent
    rcases call_cases hlive with hbefore | hwrite
    · exact h.intent slot live hbefore hintent
    · generalize hget : (nativeLocks s).get slot = before at hwrite
      cases hwrite with
      | intent => rfl
      | spent => cases hintent
      | publishAttempted => cases hintent

section Steps

variable {w w' : NativeLockWorld} {c : NativeLockChoice} {op : NativeLockOp} {r : op.Reply}

theorem wellKept_perform (h : WellKept (nativeLocks w.locks))
    (hperform : performNativeLock sha256Hex op w c = some (r, w')) :
    WellKept (nativeLocks w'.locks) := by
  constructor
  · intro slot live hlive
    rcases journal_perform hperform slot with hsame | ⟨entry, before, hslot, hbefore, hwrite⟩
    · exact h.slot slot live (hsame.symm.trans hlive)
    · rw [hlive] at hwrite
      cases hwrite with
      | bumpAttempts => exact h.slot slot before hbefore
      | downgrade => exact hslot.symm
      | noteKept => exact h.slot slot before hbefore
  · intro slot live hlive hintent
    rcases journal_perform hperform slot with hsame | ⟨entry, before, hslot, hbefore, hwrite⟩
    · exact h.intent slot live (hsame.symm.trans hlive) hintent
    · rw [hlive] at hwrite
      cases hwrite with
      | bumpAttempts => exact h.intent slot before hbefore hintent
      | downgrade => rfl
      | noteKept => exact h.intent slot before hbefore hintent

/-- Recovery puts no other notes into a slot. -/
theorem succeeded_of_perform {entry : PendingNativeLock}
    (hperform : performNativeLock sha256Hex op w c = some (r, w'))
    (h : Succeeded entry w'.locks) : Succeeded entry w.locks := by
  obtain ⟨live, hlive, hother⟩ := h
  rcases journal_perform hperform entry.escrowId with hsame | ⟨e, before, hslot, hbefore, hwrite⟩
  · exact ⟨live, hsame.symm.trans hlive, hother⟩
  · refine ⟨before, hbefore, ?_⟩
    rw [hlive] at hwrite
    cases hwrite with
    | bumpAttempts => exact (otherNotes_congr rfl).mp hother
    | downgrade => exact absurd hother (not_otherNotes_of_none rfl)
    | noteKept => exact (otherNotes_congr rfl).mp hother

end Steps

theorem succeeded_of_call {entry : PendingNativeLock}
    (h : Succeeded entry (call.run f s)) : Succeeded entry s ∨
      ∃ now input, call = .spent now input ∧ input.escrowId = entry.escrowId ∧
        entry.oobNotes ≠ some input.oobNotes := by
  obtain ⟨live, hlive, hother⟩ := h
  rcases call_cases hlive with hbefore | hwrite
  · exact Or.inl ⟨live, hbefore, hother⟩
  · generalize hget : (nativeLocks s).get entry.escrowId = before at hwrite
    generalize hslot : entry.escrowId = slot at hwrite
    cases hwrite with
    | intent => exact absurd hother (not_otherNotes_of_none rfl)
    | spent now input => exact Or.inr ⟨now, input, rfl, rfl, fun h => hother.notes_ne h.symm⟩
    | publishAttempted => exact Or.inl ⟨_, hget, (otherNotes_congr rfl).mp hother⟩

/-! ### What a flow is still to write unchecked -/

/-- The entry whose slot a call writes to, whatever it holds. -/
def NativeLockOp.unchecked : NativeLockOp → Option PendingNativeLock
  | .clearPendingNativeLock entry | .noteKept entry _ => some entry
  | _ => none

/-- The entry that a recovery which makes a call was given. -/
def NativeLockOp.snapshot : NativeLockOp → Option PendingNativeLock
  | .redeemNotes entry | .redeemRejectedNotes entry | .clearStaleIntent entry | .bumpAttempts entry
  | .clearPendingNativeLock entry | .clearPendingNativeLockMatching entry
  | .downgradeReabsorbedToIntent entry _ | .noteKept entry _ => some entry
  | _ => none

/-- The unchecked write for an entry that satisfies `E`. -/
def WritesUnchecked (E : PendingNativeLock → Prop) (op : NativeLockOp) : Prop :=
  ∃ entry, op.unchecked = some entry ∧ E entry

def ReadsEntry : NativeLockOp → Prop
  | .getPendingNativeLock _ => True
  | _ => False

/-- A flow that writes unchecked for no entry that satisfies `E`, unless it reads an entry first. -/
def Spares {α : Type} (E : PendingNativeLock → Prop) (p : NativeLockProg α) : Prop :=
  p.Avoids (WritesUnchecked E) ReadsEntry fun _ => True

def RecoversOnly {α : Type} (entry : PendingNativeLock) (p : NativeLockProg α) : Prop :=
  p.Everywhere fun (op : NativeLockOp) _ =>
    (∀ e, op.unchecked = some e → e = entry) ∧ ¬ ReadsEntry op

def ReadsFirstAt {α : Type} : (op : NativeLockOp) → (op.Reply → NativeLockProg α) → Prop
  | .getPendingNativeLock _, k => ∀ live, Spares (fun entry => live ≠ some entry) (k live)
  | _, _ => True

/-- A flow that writes unchecked only for the entry that it has read last. -/
def ReadsFirst {α : Type} (p : NativeLockProg α) : Prop := p.Everywhere ReadsFirstAt

section Programs

variable {α β : Type} {E E' : PendingNativeLock → Prop} {entry : PendingNativeLock}
  {trade : LoadedTrade}

variable {p : NativeLockProg α}

theorem Spares.mono (h : Spares E p) (hE : ∀ e, E' e → E e) : Spares E' p :=
  Prog.Avoids.or h h fun _ ⟨e, he, hE'⟩ => Or.inl ⟨e, he, hE e hE'⟩

theorem spares_bind {f : α → NativeLockProg β} (hp : RecoversOnly entry p)
    (hE : ¬ E entry) (hf : ∀ a, Spares E (f a)) : Spares E (p >>= f) := by
  refine Prog.avoids_bind (Prog.avoids_of_everywhere (hp.imp fun op _ hop => ?_) hf)
  rintro ⟨e, he, hEe⟩
  rw [hop.1 e he] at hEe
  exact hE hEe

theorem readsFirst_bind {f : α → NativeLockProg β}
    (hp : RecoversOnly entry p) (hf : ∀ a, ReadsFirst (f a)) : ReadsFirst (p >>= f) := by
  refine Prog.everywhere_bind (ψ := fun op => ¬ ReadsEntry op) (fun op k hop => ?_)
    (hp.imp fun op _ h => h.2) hf
  cases op with
  | getPendingNativeLock => exact absurd trivial hop
  | _ => trivial

/-! ### Recovery writes for its own entry -/

theorem recoversOnly_keep {reason : String} : RecoversOnly entry (keep entry reason) := by
  refine ⟨⟨fun e he => (Option.some.inj he).symm, id⟩, fun r => ?_⟩
  cases r <;> trivial

theorem recoversOnly_call {op : NativeLockOp} {k : op.Reply → NativeLockProg α}
    (hchecked : op.unchecked = none) (hreads : ¬ ReadsEntry op)
    (hk : ∀ r, RecoversOnly entry (k r)) :
    RecoversOnly entry (.call op k) := by
  refine ⟨⟨fun e he => ?_, hreads⟩, hk⟩
  rw [hchecked] at he
  cases he

variable {requireConfirmedCredit : Bool}

theorem recoversOnly_reabsorbThrew {e : MintError} :
    RecoversOnly entry (reabsorbThrew entry requireConfirmedCredit e) := by
  unfold reabsorbThrew
  split_ifs
  · refine recoversOnly_call rfl id fun r => ?_
    cases r <;> trivial
  · exact recoversOnly_keep

theorem recoversOnly_settleReabsorbed :
    RecoversOnly entry (settleReabsorbed entry trade requireConfirmedCredit) := by
  refine recoversOnly_call rfl id fun now => ?_
  simp only [Prog.bind]
  split_ifs
  · refine recoversOnly_call rfl id fun r => ?_
    cases r with
    | ok => trivial
    | error e => exact recoversOnly_reabsorbThrew
  · refine recoversOnly_call rfl id fun r => ?_
    cases r with
    | ok => trivial
    | error e => exact recoversOnly_reabsorbThrew

theorem recoversOnly_reabsorb :
    RecoversOnly entry (reabsorb entry trade requireConfirmedCredit) := by
  refine recoversOnly_call rfl id fun r => ?_
  cases r with
  | error e => trivial
  | ok =>
    simp only [Prog.bind]
    split_ifs
    · refine recoversOnly_call rfl id fun r => ?_
      cases r with
      | ok => exact recoversOnly_settleReabsorbed
      | error e => exact recoversOnly_reabsorbThrew
    · refine recoversOnly_call rfl id fun r => ?_
      cases r with
      | ok => exact recoversOnly_settleReabsorbed
      | error e => exact recoversOnly_reabsorbThrew

theorem recoversOnly_settleCommitted : RecoversOnly entry (settleCommitted entry trade) := by
  unfold settleCommitted
  split
  · exact recoversOnly_keep
  · exact recoversOnly_keep
  · split_ifs
    · exact recoversOnly_keep
    · refine ⟨⟨fun e he => (Option.some.inj he).symm, id⟩, fun r => ?_⟩
      cases r <;> trivial

theorem recoversOnly_settleAbsent : RecoversOnly entry (settleAbsent entry trade) := by
  unfold settleAbsent
  split_ifs
  · exact recoversOnly_reabsorb
  · exact recoversOnly_keep

theorem recoversOnly_settleRefused {notesHash : String} :
    RecoversOnly entry (settleRefused entry trade notesHash) := by
  unfold settleRefused
  split_ifs
  · refine recoversOnly_call rfl id fun r => ?_
    match r with
    | .ok true => exact recoversOnly_reabsorb
    | .ok false =>
      refine ⟨⟨fun e he => (Option.some.inj he).symm, id⟩, fun r => ?_⟩
      cases r with
      | ok => trivial
      | error e => exact recoversOnly_keep
    | .error e => exact recoversOnly_keep
  · exact recoversOnly_reabsorb

theorem recoversOnly_settleAgainst {oobNotes : String} :
    RecoversOnly entry (settleAgainst entry oobNotes trade) := by
  unfold settleAgainst
  split_ifs
  · refine recoversOnly_call rfl id fun r => ?_
    cases r with
    | error e => exact recoversOnly_keep
    | ok notesHash =>
      simp only [Prog.bind]
      split_ifs
      · exact recoversOnly_settleCommitted
      · exact recoversOnly_reabsorb
  · exact recoversOnly_settleAbsent
  · refine recoversOnly_call rfl id fun r => ?_
    cases r with
    | error e => trivial
    | ok notesHash =>
      simp only [Prog.bind]
      split_ifs
      · exact recoversOnly_settleRefused
      · exact recoversOnly_settleAbsent

variable {ignoreAttemptCap : Bool}

theorem recoversOnly_recover :
    RecoversOnly entry (recoverPendingNativeLock ignoreAttemptCap entry) := by
  refine recoversOnly_call rfl id fun now => ?_
  simp only [Prog.bind]
  split
  · unfold settleIntent
    split_ifs
    · refine recoversOnly_call rfl id fun r => ?_
      match r with
      | .ok true => trivial
      | .ok false => trivial
      | .error e => trivial
    · trivial
  · refine recoversOnly_call rfl id fun currentFed => ?_
    simp only [Prog.bind]
    split_ifs
    · exact recoversOnly_keep
    · trivial
    · refine recoversOnly_call rfl id fun r => ?_
      match r with
      | .error e => exact recoversOnly_keep
      | .ok none => exact recoversOnly_keep
      | .ok (some trade) => exact recoversOnly_settleAgainst

/-! ### Flows write for the entry that they have read -/

theorem spares_map {g : α → β} (h : Spares E p) : Spares E (p >>= fun a => .ret (g a)) :=
  Prog.avoids_bind (h.imp fun _ _ => trivial)

theorem readsFirst_map {g : α → β} (h : ReadsFirst p) : ReadsFirst (p >>= fun a => .ret (g a)) := by
  induction p with
  | ret => trivial
  | call op k ih =>
    refine ⟨?_, fun r => ih r (h.2 r)⟩
    cases op with
    | getPendingNativeLock => exact fun live => spares_map (h.1 live)
    | _ => trivial

theorem spares_read {k : Option PendingNativeLock → NativeLockProg α} :
    Spares E (.call (.getPendingNativeLock escrowId) k) := by
  refine ⟨?_, Or.inl trivial⟩
  rintro ⟨e, he, -⟩
  cases he

variable {summary : NativeLockDrainSummary}

variable {entries : List PendingNativeLock}

theorem spares_drainNativeLocks : Spares E (drainNativeLocks entries summary) := by
  cases entries with
  | nil => trivial
  | cons => exact spares_read

theorem readsFirst_drainNativeLocks : ReadsFirst (drainNativeLocks entries summary) := by
  induction entries generalizing summary with
  | nil => trivial
  | cons snapshot rest ih =>
    refine ⟨fun live => ?_, fun live => ?_⟩
    · cases live with
      | none => exact spares_drainNativeLocks
      | some live =>
        simp only [Prog.bind]
        exact spares_bind recoversOnly_recover (fun h => h rfl) fun _ => spares_drainNativeLocks
    · cases live with
      | none => exact ih
      | some live =>
        simp only [Prog.bind]
        exact readsFirst_bind recoversOnly_recover fun _ => ih

theorem readsFirst_settle : ReadsFirst (settlePendingNativeLock ignoreAttemptCap escrowId) := by
  refine ⟨fun live => ?_, fun live => ?_⟩
  · cases live with
    | none => trivial
    | some live =>
      simp only [Prog.bind]
      split_ifs
      · trivial
      · exact spares_bind recoversOnly_recover (fun h => h rfl) fun _ => trivial
  · cases live with
    | none => trivial
    | some live =>
      simp only [Prog.bind]
      split_ifs
      · trivial
      · exact readsFirst_bind recoversOnly_recover fun _ => trivial

theorem readsFirst_recoverFlow (flow : NativeLockFlow) : ReadsFirst (recoverFlow flow) := by
  cases flow with
  | drain => exact readsFirst_map ⟨trivial, fun _ => readsFirst_drainNativeLocks⟩
  | settle => exact readsFirst_map readsFirst_settle

theorem spares_recoverFlow (flow : NativeLockFlow) : Spares E (recoverFlow flow) := by
  cases flow with
  | drain =>
    refine spares_map ⟨?_, Or.inr fun _ => spares_drainNativeLocks⟩
    rintro ⟨e, he, -⟩
    cases he
  | settle => exact spares_map spares_read

end Programs

/-! ### Interleavings -/

section Runs

variable {ι : Type} [DecidableEq ι] {w w' : NativeLockWorld} {c : NativeLockChoice}
  {op : NativeLockOp} {r : op.Reply}

/-- The events that count: no call stashes other notes for an escrow while a flow is still to write
there unchecked for the entry that it has read. -/
def Unsucceeded (cfg : Config (nativeLockPlatform sha256Hex) ι Unit) :
    Event (nativeLockPlatform sha256Hex) ι NativeLockFlow → Prop
  | .drift (.calls (.spent _ input) _) => ∀ i p, cfg.slots i = some p →
    Spares (fun entry => entry.escrowId = input.escrowId ∧ entry.oobNotes ≠ some input.oobNotes) p
  | _ => True

/-- What holds of a pending flow: what it is still to write unchecked is for notes that are still
there. -/
def Abreast (p : NativeLockProg Unit) (w : NativeLockWorld) : Prop :=
  Spares (fun entry => Succeeded entry w.locks) p ∧ ReadsFirst p

theorem not_succeeded_of_read {entry : PendingNativeLock} (hkept : WellKept (nativeLocks s))
    (hread : (loadNativeLocks f s).get escrowId = some entry) : ¬ Succeeded entry s := by
  rintro ⟨live, hlive, hother⟩
  have hget : (nativeLocks s).get escrowId = some entry := loadNativeLocks_eq hread ▸ hread
  rw [hkept.slot escrowId entry hget, hget] at hlive
  obtain rfl := Option.some.inj hlive
  exact hother.notes_ne rfl

theorem Abreast.own {k : op.Reply → NativeLockProg Unit} (h : Abreast (.call op k) w)
    (hkept : WellKept (nativeLocks w.locks))
    (hperform : performNativeLock sha256Hex op w c = some (r, w')) : Abreast (k r) w' := by
  obtain ⟨⟨-, hspares⟩, hreads⟩ := h
  refine ⟨?_, hreads.2 r⟩
  cases op with
  | getPendingNativeLock escrowId =>
    refine Spares.mono (hreads.1 r) ?_
    rintro entry hsucceeded rfl
    cases c with
    | storage f message =>
      obtain ⟨hr, rfl⟩ := Prod.mk.inj (Option.some.inj hperform)
      exact not_succeeded_of_read hkept hr hsucceeded
    | _ => cases hperform
  | _ =>
    exact Spares.mono (hspares.resolve_left id r) fun entry => succeeded_of_perform hperform

theorem Abreast.bystander {p : NativeLockProg Unit} (h : Abreast p w)
    (hperform : performNativeLock sha256Hex op w c = some (r, w')) : Abreast p w' :=
  ⟨h.1.mono fun _ => succeeded_of_perform hperform, h.2⟩

/-- In every interleaving of flows and calls in which none stashes other notes for an escrow that a
flow is still to write to unchecked, a recovery that was given an entry never changes or removes one
that holds other notes by then. -/
theorem successor_untouched (sha256Hex : String → String)
    {cfg : Config (nativeLockPlatform sha256Hex) ι Unit}
    (h : Run (Config.exec recoverFlow)
      (Idle fun w : NativeLockWorld => WellKept (nativeLocks w.locks)) Unsucceeded cfg)
    {i : ι} {op : NativeLockOp} {k : op.Reply → NativeLockProg Unit}
    (hpending : cfg.slots i = some (.call op k)) {entry : PendingNativeLock}
    (hsnapshot : op.snapshot = some entry) {c : NativeLockChoice} {r : op.Reply}
    {w' : NativeLockWorld} (hstep : performNativeLock sha256Hex op cfg.world c = some (r, w'))
    {live : PendingNativeLock}
    (hlive : (nativeLocks cfg.world.locks).get entry.escrowId = some live)
    (hother : OtherNotes entry live) :
    (nativeLocks w'.locks).get entry.escrowId = some live := by
  have hslots := slots_invariant (J := fun w : NativeLockWorld => WellKept (nativeLocks w.locks))
    (K := Abreast) ?_ ?_ ?_ ?_ h
  · obtain ⟨hkept, hall⟩ := hslots
    have hspares := (hall i _ hpending).1.1
    rcases journal_perform hstep entry.escrowId with hsame | ⟨e, before, -, hbefore, hwrite⟩
    · exact hsame.trans hlive
    · obtain rfl := Option.some.inj (hlive.symm.trans hbefore)
      generalize hnext : (nativeLocks w'.locks).get entry.escrowId = next at hwrite
      cases hwrite with
      | clearStaleIntent same =>
        have hintent := of_decide_eq_true (Bool.and_eq_true_iff.mp same).1
        exact absurd hother (not_otherNotes_of_none (hkept.intent _ live hlive hintent))
      | bumpAttempts same =>
        obtain rfl := Option.some.inj hsnapshot
        exact absurd same hother.notes_ne
      | clearMatching same =>
        obtain rfl := Option.some.inj hsnapshot
        exact absurd same hother.notes_ne
      | downgrade same =>
        obtain rfl := Option.some.inj hsnapshot
        exact absurd same hother.notes_ne
      | clear => exact absurd ⟨entry, hsnapshot, live, hlive, hother⟩ hspares
      | noteKept => exact absurd ⟨entry, hsnapshot, live, hlive, hother⟩ hspares
  · rintro cfg ⟨w, hw, rfl⟩
    exact ⟨hw, fun i p hp => by cases hp⟩
  · exact fun w flow _ => ⟨spares_recoverFlow flow, readsFirst_recoverFlow flow⟩
  · intro cfg i c op k r w' _ hp hkept hown hperform
    exact ⟨wellKept_perform hkept hperform, hown.own hkept hperform,
      fun j p _ _ hother => hother.bystander hperform⟩
  · intro cfg c w' hcounts hkept hdrift
    cases c with
    | calls call f =>
      obtain rfl := Option.some.inj hdrift
      refine ⟨wellKept_call hkept, fun i p hp habreast => ⟨?_, habreast.2⟩⟩
      by_cases hspent : ∃ now input, call = .spent now input
      · obtain ⟨now, input, rfl⟩ := hspent
        refine Prog.Avoids.or habreast.1 (hcounts i p hp) ?_
        rintro op ⟨e, he, hsucceeded⟩
        change Succeeded e ((NativeLockCall.spent now input).run f cfg.world.locks) at hsucceeded
        rcases succeeded_of_call hsucceeded with hbefore | ⟨now', input', hcall, hslot, hne⟩
        · exact Or.inl ⟨e, he, hbefore⟩
        · obtain ⟨rfl, rfl⟩ := NativeLockCall.spent.inj hcall
          exact Or.inr ⟨e, he, hslot.symm, hne⟩
      · refine habreast.1.mono fun e hsucceeded => ?_
        change Succeeded e (call.run f cfg.world.locks) at hsucceeded
        rcases succeeded_of_call hsucceeded with hbefore | ⟨now, input, hcall, -⟩
        · exact hbefore
        · exact absurd ⟨now, input, hcall⟩ hspent
    | _ => cases hdrift

end Runs

/-! ### Sample races -/

/-- Notes that were spent for the escrow `e`. -/
def sampleSpent (oobNotes : String) : SpentInput :=
  { escrowId := "e", oobNotes, amountMsats := 1000, federationId := some "f" }

/-- The entry that waits for a reason why it is kept. -/
def noting : Option (NativeLockProg Unit) → Option PendingNativeLock
  | some (.call (.noteKept entry _) _) => some entry
  | _ => none

theorem noting_eq_some {p : Option (NativeLockProg Unit)} {entry : PendingNativeLock}
    (h : noting p = some entry) : ∃ reason k, p = some (.call (.noteKept entry reason) k) := by
  unfold noting at h
  split at h
  · rename_i entry' reason k
    obtain rfl := Option.some.inj h
    exact ⟨reason, k, rfl⟩
  · cases h

/-- While the settling of `a` waits for the trade, another page takes `a` back and spends `b`; then
the reading of the trade fails. -/
def sampleRace (sha256Hex : String → String) :
    List (Event (nativeLockPlatform sha256Hex) Unit NativeLockFlow) :=
  [.drift (.calls (.spent 0 (sampleSpent "a")) .none), .start () (.settle true "e"),
    .step () (.storage .none ""), .step () (.clock 0), .step () (.federation (some "f")),
    .drift (.calls (.clear "e") .none), .drift (.calls (.spent 0 (sampleSpent "b")) .none),
    .step () (.throws { message := "offline" })]

theorem wellKept_missing : WellKept (nativeLocks .missing) where
  slot _ _ h := by cases h
  intent _ _ h := by cases h

theorem get_of_write {locks : NativeLocks}
    {live next : PendingNativeLock} (hlive : locks.get escrowId = some live)
    (hg : g live = .write next) :
    (nativeLocks (updateNativeLocks .none (.value locks) (editNativeLock escrowId g)).2).get escrowId =
      some next := by
  have hedit : editNativeLock escrowId g locks = some (locks.set escrowId next) := by
    unfold editNativeLock
    rw [hlive, Option.bind_some, hg]
  have hread : loadNativeLocks .none (.value locks) = locks := rfl
  simp only [updateNativeLocks, hread, hedit]
  change (locks.set escrowId next).get escrowId = some next
  rw [OrderedMap.get_set, if_pos rfl]

/-- The reason why notes `a` are kept is written into the entry of the notes `b`. -/
theorem successor_noted : ∃ cfg : Config (nativeLockPlatform fun _ => "h") Unit Unit,
    Run (Config.exec recoverFlow)
      (Idle fun w : NativeLockWorld => WellKept (nativeLocks w.locks)) (fun _ _ => True) cfg ∧
      ∃ (entry : PendingNativeLock) (reason : String)
        (k : NativeLockOp.Reply (.noteKept entry reason) → NativeLockProg Unit)
        (live : PendingNativeLock),
        cfg.slots () = some (.call (.noteKept entry reason) k) ∧
        (nativeLocks cfg.world.locks).get entry.escrowId = some live ∧ OtherNotes entry live ∧
        ∃ c r w', performNativeLock (fun _ => "h") (.noteKept entry reason) cfg.world c =
            some (r, w') ∧
          (nativeLocks w'.locks).get entry.escrowId ≠ some live := by
  have hrun : ∃ cfg : Config (nativeLockPlatform fun _ => "h") Unit Unit,
    Run (Config.exec recoverFlow)
      (Idle fun w : NativeLockWorld => WellKept (nativeLocks w.locks)) (fun _ _ => True) cfg ∧
      (noting (cfg.slots ())).any (fun entry => entry.notes? = some "a" &&
        ((nativeLocks cfg.world.locks).get entry.escrowId).any fun live =>
          live.notes? = some "b" && live.lastError = none) = true :=
    Run.exists_of_checked ⟨{}, wellKept_missing, rfl⟩ (fun _ _ => true) (fun _ _ _ => trivial)
      (sampleRace fun _ => "h") (by decide +kernel)
  obtain ⟨cfg, hrun, htest⟩ := hrun
  obtain ⟨entry, hentry, htest⟩ := (Option.any_eq_true _ _).mp htest
  obtain ⟨hnotes, hsuccessor⟩ := Bool.and_eq_true_iff.mp htest
  obtain ⟨live, hlive, htest⟩ := (Option.any_eq_true _ _).mp hsuccessor
  obtain ⟨hother, hclean⟩ := Bool.and_eq_true_iff.mp htest
  obtain ⟨reason, k, hpending⟩ := noting_eq_some hentry
  refine ⟨cfg, hrun, entry, reason, k, live, hpending, hlive,
    ⟨"a", "b", of_decide_eq_true hnotes, of_decide_eq_true hother, by decide⟩,
    .storage .none "", _, _, rfl, ?_⟩
  cases hlocks : cfg.world.locks with
  | value locks =>
    rw [hlocks] at hlive
    change locks.get entry.escrowId = some live at hlive
    have hnoted : (nativeLocks (noteKept .none entry.escrowId reason (.value locks)).2).get
        entry.escrowId = some { live with lastError := some (clipped reason) } :=
      get_of_write hlive rfl
    intro hsame
    have herror := congrArg PendingNativeLock.lastError (Option.some.inj (hnoted.symm.trans hsame))
    rw [of_decide_eq_true hclean] at herror
    cases herror
  | _ =>
    rw [hlocks] at hlive
    cases hlive

abbrev SettlingRun (w : NativeLockWorld) (p : Option (NativeLockProg Unit)) : Prop :=
  Run (Config.exec recoverFlow) (Idle fun w : NativeLockWorld => WellKept (nativeLocks w.locks))
    Unsucceeded (Config.solo (P := nativeLockPlatform fun _ => "h") w p)

abbrev settling (p : Recovery) : NativeLockProg Unit :=
  (p >>= fun outcome => .ret (some outcome)) >>= fun _ => .ret ()

def deadNotes : MintError := { code := "ALREADY_SPENT_UNCONFIRMED" }

theorem wellKept_sample : WellKept (nativeLocks (journalOf sampleAttempted).locks) := by
  have hget : ∀ slot live, (nativeLocks (journalOf sampleAttempted).locks).get slot = some live →
      slot = "e" ∧ live = sampleAttempted := by
    intro slot live hlive
    change (OrderedMap.empty.set "e" sampleAttempted).get slot = some live at hlive
    rw [OrderedMap.get_set] at hlive
    split_ifs at hlive with hslot
    · exact ⟨hslot, (Option.some.inj hlive).symm⟩
    · cases hlive
  constructor
  · intro slot live hlive
    obtain ⟨rfl, rfl⟩ := hget slot live hlive
    rfl
  · intro slot live hlive hintent
    obtain ⟨rfl, rfl⟩ := hget slot live hlive
    cases hintent

def sampleBumped : NativeLockWorld :=
  { locks := (bumpAttempts .none sampleAttempted (journalOf sampleAttempted).locks).2 }

/-- The journal after another page has cleared the entry and spent `b`. -/
def sampleSucceeded : NativeLockWorld :=
  { locks := (NativeLockCall.spent 0 (sampleSpent "b")).run .none
      ((NativeLockCall.clear "e").run .none sampleBumped.locks) }

theorem settlingRun_dead {trade : LoadedTrade} (hcommitted : trade.committed = true)
    (hother : ¬ trade.commits "h" = true) :
    SettlingRun sampleBumped (some (settling (reabsorbThrew sampleAttempted false deadNotes))) := by
  have hidle : SettlingRun (journalOf sampleAttempted) none := .start ⟨_, wellKept_sample, rfl⟩
  have hbegun : SettlingRun (journalOf sampleAttempted) (some (recoverFlow (.settle true "e"))) :=
    hidle.solo_start trivial
  have hread : SettlingRun (journalOf sampleAttempted)
      (some (settling (recoverPendingNativeLock true sampleAttempted))) :=
    hbegun.solo_step (c := NativeLockChoice.storage .none "")
        (r := some sampleAttempted) trivial rfl
  have hclock := hread.solo_step (c := NativeLockChoice.clock 0) trivial rfl
  have hhome := hclock.solo_step (c := NativeLockChoice.federation (some "f")) trivial rfl
  have hloaded : SettlingRun (journalOf sampleAttempted)
      (some (settling (settleAgainst sampleAttempted "a" trade))) :=
    hhome.solo_step (c := NativeLockChoice.loads (some trade)) trivial rfl
  have hexcluded : SettlingRun (journalOf sampleAttempted)
      (some (settling (reabsorb sampleAttempted trade false))) := by
    unfold settleAgainst at hloaded
    rw [if_pos hcommitted] at hloaded
    have hhashed := hloaded.solo_step (c := NativeLockChoice.returns) trivial rfl
    simp only [Prog.bind, if_neg hother] at hhashed
    exact hhashed
  have hbumped := hexcluded.solo_step (c := NativeLockChoice.storage .none "") trivial rfl
  exact hbumped.solo_step (c := NativeLockChoice.throws deadNotes) trivial rfl

/-- Another page clears the sample entry and spends `b` before its settling clears the dead notes
`a`: the entry of `b` stays. -/
theorem successor_untouched_dead : ∃ live r w',
    (nativeLocks sampleSucceeded.locks).get "e" = some live ∧ OtherNotes sampleAttempted live ∧
    performNativeLock (fun _ => "h") (.clearPendingNativeLockMatching sampleAttempted) sampleSucceeded
      (.storage .none "") = some (r, w') ∧ (nativeLocks w'.locks).get "e" = some live := by
  have hshown : sampleLocked.any (fun trade => trade.committed && !trade.commits "h") = true := by
    decide +kernel
  obtain ⟨trade, -, htrade⟩ := (Option.any_eq_true _ _).mp hshown
  rw [Bool.and_eq_true, Bool.not_eq_true'] at htrade
  have hdead := settlingRun_dead htrade.1 (Bool.eq_false_iff.mp htrade.2)
  unfold reabsorbThrew at hdead
  rw [if_pos (by decide +kernel)] at hdead
  have hcleared := hdead.solo_drift
    (c := NativeLockChoice.calls (NativeLockCall.clear "e") Faults.none) (by trivial) rfl
  have hspent := hcleared.solo_drift (v := sampleSucceeded)
    (c := NativeLockChoice.calls (NativeLockCall.spent 0 (sampleSpent "b")) Faults.none) ?_ rfl
  · have hlive : (nativeLocks sampleSucceeded.locks).get "e" =
        some (spentEntry 0 (sampleSpent "b") none) := by
      decide +kernel
    have hother : OtherNotes sampleAttempted (spentEntry 0 (sampleSpent "b") none) :=
      ⟨"a", "b", by decide +kernel, by decide +kernel, by decide⟩
    exact ⟨_, _, _, hlive, hother, rfl, successor_untouched _ hspent (i := ()) rfl rfl
      (c := NativeLockChoice.storage .none "") rfl hlive hother⟩
  · -- The settling is about to end.
    intro i p hp
    obtain rfl := Option.some.inj hp
    refine ⟨?_, Or.inr fun r => ?_⟩
    · rintro ⟨e, he, -⟩
      cases he
    · cases r <;> trivial

end ChamaEscrow
