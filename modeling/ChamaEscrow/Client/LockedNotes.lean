import ChamaEscrow.Client.FediFunding

/-!
# Notes whose LOCK was published

A funding clears its entry once its LOCK is confirmed; until then the stash holds notes that the
escrow may already own, and a drain takes back what it finds there.  Neither looks at the trade.

* `locked_notes_stay`: no flow takes back notes whose LOCK was published, and no drain writes back
  an entry that was cleared, as long as every published LOCK is confirmed, no drain reads the stash
  while it holds such notes, and no LOCK is published and no entry cleared under the hands of
  another flow.
* `locked_notes_taken`: after a crash between the LOCK and the clearing a drain takes the notes out
  of the escrow; a drain that began before the LOCK writes the cleared entry back.
-/

namespace ChamaEscrow

open Js Library

/-! ### What a flow is still to do -/

/-- The calls that take notes back or write an entry back. -/
def FundingOp.recovers : FundingOp → Prop
  | .receiveEcash _ | .countAttempt _ => True
  | _ => False

/-- The calls after which a flow knows other notes than before. -/
def Refreshes : FundingOp → Prop
  | .generateEcash _ _ | .loadStash => True
  | _ => False

/-- A flow that makes no call in `T`, unless it learns of other notes first. -/
def Shuns {α : Type} (T : FundingOp → Prop) (p : FundingProg α) : Prop :=
  p.Avoids T Refreshes fun _ => True

def Takes (oobNotes : String) (op : FundingOp) : Prop := op = .receiveEcash oobNotes

def WritesBack (entries : PendingFunding → Prop) (op : FundingOp) : Prop :=
  ∃ entry, op = .countAttempt entry ∧ entries entry

/-- What would hollow out an escrow, or revive a cleared entry. -/
def Hollows (w : FundingWorld) : FundingOp → Prop
  | .receiveEcash oobNotes => oobNotes ∈ w.published
  | .countAttempt entry => (entry.escrowId, entry.oobNotes) ∈ w.cleared
  | _ => False

def Beyond (spent : Option String) : FundingOp → Prop
  | .receiveEcash oobNotes => spent ≠ some oobNotes
  | .countAttempt _ => True
  | _ => False

def Unfound (stash : Fundings) : FundingOp → Prop
  | .receiveEcash oobNotes => ∀ entry ∈ stash.values,
    entry.attempts < maxFundingDrainAttempts → entry.oobNotes ≠ oobNotes
  | .countAttempt entry =>
    ∀ live, stash.get entry.escrowId = some live → live.oobNotes ≠ entry.oobNotes
  | _ => False

variable (sha256Hex : String → String)

/-- What follows the calls of a flow: what it recovers is what it has spent itself or has found in
the stash, and neither after it has seen the LOCK of the notes, or the entry was cleared. -/
def HeedsAt {α : Type} : (op : FundingOp) → (op.Reply → FundingProg α) → Prop
  | .generateEcash _ _, k => ∀ reply, Shuns (Beyond reply.toOption) (k reply)
  | .loadStash, k => ∀ stash, Shuns (Unfound stash) (k stash)
  | .lockAndPublish _ oobNotes _, k => ∀ reply,
    confirmsLock (sha256Hex oobNotes) reply = true → Shuns (Takes oobNotes) (k reply)
  | .clearFunding escrowId _, k =>
    Shuns (WritesBack fun entry => entry.escrowId = escrowId) (k ())
  | _, _ => True

/-- A flow in which this holds of every call. -/
def Heeds {α : Type} (p : FundingProg α) : Prop := p.Everywhere (HeedsAt sha256Hex)

variable {sha256Hex}

section Programs

variable {α β : Type} {T T' : FundingOp → Prop}

variable {p : FundingProg α}

theorem Shuns.mono (h : Shuns T p) (hT : ∀ op, T' op → T op) : Shuns T' p :=
  Prog.Avoids.or h h fun op htarget => Or.inl (hT op htarget)

theorem Shuns.map {g : α → β} (h : Shuns T p) : Shuns T (p >>= fun a => .ret (g a)) :=
  Prog.avoids_bind (h.imp fun _ _ => trivial)

theorem shuns_bind {f : α → FundingProg β} (hp : Shuns T p)
    (hf : ∀ a, Shuns T (f a)) : Shuns T (p >>= f) :=
  Prog.avoids_bind (hp.imp fun a _ => hf a)

theorem shuns_call {op : FundingOp} {k : op.Reply → FundingProg α} (hop : ¬ T op)
    (hk : ∀ r, Shuns T (k r)) : Shuns T (.call op k) :=
  ⟨hop, Or.inr hk⟩

theorem Heeds.map {g : α → β} (h : Heeds sha256Hex p) :
    Heeds sha256Hex (p >>= fun a => .ret (g a)) := by
  induction p with
  | ret => trivial
  | call op k ih =>
    refine ⟨?_, fun r => ih r (h.2 r)⟩
    cases op with
    | generateEcash => exact fun reply => (h.1 reply).map
    | loadStash => exact fun stash => (h.1 stash).map
    | lockAndPublish => exact fun reply hreply => (h.1 reply hreply).map
    | clearFunding => exact Shuns.map h.1
    | _ => trivial

theorem recovers_of_writesBack {entries : PendingFunding → Prop} (op : FundingOp)
    (h : WritesBack entries op) : op.recovers := by
  obtain ⟨entry, rfl, -⟩ := h
  trivial

theorem recovers_of_hollows {w : FundingWorld} (op : FundingOp) (h : Hollows w op) :
    op.recovers := by
  cases op with
  | receiveEcash | countAttempt => trivial
  | _ => exact h

theorem recovers_of_beyond {spent : Option String} (op : FundingOp) (h : Beyond spent op) :
    op.recovers := by
  cases op with
  | receiveEcash | countAttempt => trivial
  | _ => exact h

theorem recovers_of_unfound {stash : Fundings} (op : FundingOp) (h : Unfound stash op) :
    op.recovers := by
  cases op with
  | receiveEcash | countAttempt => trivial
  | _ => exact h

/-! ### A funding recovers what it has spent -/

variable {escrowId oobNotes expectedNotesHash : String} {opts : FediFundOpts} {stashed : Bool}

theorem shuns_takeBack (hT : ∀ op, T op → op.recovers) (htake : ¬ T (.receiveEcash oobNotes)) :
    Shuns T (takeBack escrowId oobNotes) := by
  refine shuns_call htake fun r => ?_
  cases r with
  | ok => exact shuns_call (hT _) fun _ => trivial
  | error => trivial

theorem shuns_lockUnlessAborted (hT : ∀ op, T op → op.recovers)
    (htake : ¬ T (.receiveEcash oobNotes)) :
    Shuns T (lockUnlessAborted opts oobNotes expectedNotesHash stashed) := by
  refine shuns_call (hT _) fun yes => ?_
  cases yes with
  | true => exact (shuns_takeBack hT htake).map
  | false =>
    refine shuns_call (hT _) fun reply => ?_
    cases reply with
    | error => exact (shuns_takeBack hT htake).map
    | ok lockedNotesHash =>
      simp only [Prog.bind]
      split_ifs
      · exact shuns_call (hT _) fun _ => trivial
      · exact (shuns_takeBack hT htake).map

theorem shuns_stashAndLock (hT : ∀ op, T op → op.recovers) (htake : ¬ T (.receiveEcash oobNotes)) :
    Shuns T (stashAndLock sha256Hex opts oobNotes) := by
  refine shuns_call (hT _) fun r => ?_
  cases r with
  | ok => exact shuns_lockUnlessAborted hT htake
  | error =>
    simp only [Prog.bind]
    refine shuns_bind (shuns_takeBack hT htake) fun back => ?_
    cases back with
    | true => trivial
    | false => exact shuns_lockUnlessAborted hT htake

theorem heeds_takeBack : Heeds sha256Hex (takeBack escrowId oobNotes) := by
  refine ⟨trivial, fun r => ?_⟩
  cases r with
  | ok => exact ⟨trivial, fun _ => trivial⟩
  | error => trivial

theorem heeds_lockUnlessAborted :
    Heeds sha256Hex (lockUnlessAborted opts oobNotes (sha256Hex oobNotes) stashed) := by
  refine ⟨trivial, fun yes => ?_⟩
  cases yes with
  | true => exact heeds_takeBack.map
  | false =>
    refine ⟨fun reply hconfirms => ?_, fun reply => ?_⟩
    · cases reply with
      | error => cases hconfirms
      | ok lockedNotesHash =>
        cases lockedNotesHash with
        | none => cases hconfirms
        | some locked =>
          have hours : some locked = some (sha256Hex oobNotes) :=
            congrArg some (of_decide_eq_true hconfirms)
          simp only [Prog.bind, if_pos hours]
          exact shuns_call (fun h => by cases h) fun _ => trivial
    · cases reply with
      | error => exact heeds_takeBack.map
      | ok lockedNotesHash =>
        simp only [Prog.bind]
        split_ifs
        · exact ⟨trivial, fun _ => trivial⟩
        · exact heeds_takeBack.map

theorem heeds_stashAndLock : Heeds sha256Hex (stashAndLock sha256Hex opts oobNotes) := by
  refine ⟨trivial, fun r => ?_⟩
  cases r with
  | ok => exact heeds_lockUnlessAborted
  | error =>
    refine ⟨trivial, fun back => ?_⟩
    cases back with
    | ok => exact ⟨trivial, fun _ => trivial⟩
    | error => exact heeds_lockUnlessAborted

theorem heeds_runFediFundAndLock : Heeds sha256Hex (runFediFundAndLock sha256Hex opts) := by
  refine ⟨trivial, fun ready => ?_⟩
  cases ready with
  | error => trivial
  | ok =>
    refine ⟨trivial, fun yes => ?_⟩
    cases yes with
    | true => trivial
    | false =>
      refine ⟨trivial, fun writable => ?_⟩
      cases writable with
      | error => trivial
      | ok =>
        refine ⟨fun reply => ?_, fun reply => ?_⟩
        · cases reply with
          | error => trivial
          | ok oobNotes =>
            exact shuns_stashAndLock recovers_of_beyond fun h => h rfl
        · cases reply with
          | error => trivial
          | ok => exact heeds_stashAndLock

theorem shuns_runFediFundAndLock (hT : ∀ op, T op → op.recovers) :
    Shuns T (runFediFundAndLock sha256Hex opts) := by
  refine shuns_call (hT _) fun ready => ?_
  cases ready with
  | error => trivial
  | ok =>
    refine shuns_call (hT _) fun yes => ?_
    cases yes with
    | true => trivial
    | false =>
      refine shuns_call (hT _) fun writable => ?_
      cases writable with
      | error => trivial
      | ok => exact ⟨hT _, Or.inl trivial⟩

/-! ### A drain recovers what it has found -/

variable {entry : PendingFunding} {entries : List PendingFunding} {summary : FundingDrainSummary}

theorem shuns_drainFunding (hT : ∀ op, T op → op.recovers)
    (hback : ¬ T (.countAttempt entry.bumped))
    (htake : ¬ T (.receiveEcash entry.oobNotes)) : Shuns T (drainFunding entry summary) := by
  refine shuns_call hback fun counted => ?_
  cases counted with
  | error => trivial
  | ok =>
    refine shuns_call htake fun r => ?_
    cases r with
    | ok => exact shuns_call (hT _) fun _ => trivial
    | error => exact shuns_call (hT _) fun _ => trivial

theorem shuns_drainFundings (hT : ∀ op, T op → op.recovers)
    (hspared : ∀ entry ∈ entries, entry.attempts < maxFundingDrainAttempts →
      ¬ T (.countAttempt entry.bumped) ∧ ¬ T (.receiveEcash entry.oobNotes)) :
    Shuns T (drainFundings entries summary) := by
  induction entries generalizing summary with
  | nil => trivial
  | cons entry rest ih =>
    have hrest {summary : FundingDrainSummary} : Shuns T (drainFundings rest summary) :=
      ih fun e he => hspared e (List.mem_cons_of_mem entry he)
    unfold drainFundings
    split_ifs with hattempts
    · exact hrest
    · obtain ⟨hback, htake⟩ := hspared entry List.mem_cons_self (Nat.not_le.mp hattempts)
      exact shuns_bind (shuns_drainFunding hT hback htake) fun _ => hrest

theorem heeds_drainFundings (hnodup : (entries.map (·.escrowId)).Nodup) :
    Heeds sha256Hex (drainFundings entries summary) := by
  induction entries generalizing summary with
  | nil => trivial
  | cons entry rest ih =>
    obtain ⟨hfresh, hnodup⟩ := List.nodup_cons.mp hnodup
    unfold drainFundings
    split_ifs
    · exact ih hnodup
    · refine ⟨trivial, fun counted => ?_⟩
      cases counted with
      | error => exact ih hnodup
      | ok =>
        refine ⟨trivial, fun r => ?_⟩
        cases r with
        | error => exact ⟨trivial, fun _ => ih hnodup⟩
        | ok =>
          refine ⟨?_, fun _ => ih hnodup⟩
          refine shuns_drainFundings recovers_of_writesBack fun e he _ => ⟨?_, ?_⟩
          · rintro ⟨e', he', hescrow⟩
            obtain rfl := FundingOp.countAttempt.inj he'
            exact hfresh (List.mem_map.mpr ⟨e, he, hescrow⟩)
          · rintro ⟨e', he', -⟩
            cases he'

theorem heeds_drainPendingFundings : Heeds sha256Hex drainPendingFundings := by
  refine ⟨trivial, fun yes => ?_⟩
  cases yes with
  | false => exact ⟨trivial, fun _ => trivial⟩
  | true =>
    refine ⟨fun stash => ?_, fun stash => heeds_drainFundings stash.nodup_values⟩
    refine shuns_drainFundings recovers_of_unfound fun entry hentry hattempts =>
      ⟨fun h => ?_, fun h => ?_⟩
    · exact h entry (Fundings.mem_values.mp hentry) rfl
    · exact h entry hentry hattempts rfl

/-! ### Flows -/

theorem heeds_fundingFlow (flow : FundingFlow) : Heeds sha256Hex (fundingFlow sha256Hex flow) := by
  cases flow with
  | fund => exact heeds_runFediFundAndLock.map
  | drain => exact heeds_drainPendingFundings.map
  | stash => exact ⟨trivial, fun _ => trivial⟩
  | clear => exact ⟨trivial, fun _ => trivial⟩

theorem shuns_fundingFlow (hT : ∀ op, T op → op.recovers) (flow : FundingFlow) :
    Shuns T (fundingFlow sha256Hex flow) := by
  cases flow with
  | fund => exact (shuns_runFediFundAndLock hT).map
  | drain =>
    refine Shuns.map (shuns_call (hT _) fun yes => ?_)
    cases yes with
    | true => exact ⟨hT _, Or.inl trivial⟩
    | false => exact shuns_call (hT _) fun _ => trivial
  | stash => exact shuns_call (hT _) fun _ => trivial
  | clear => exact shuns_call (hT _) fun _ => trivial

end Programs

/-! ### Interleavings -/

section Runs

variable {ι : Type} [DecidableEq ι] {w w' : FundingWorld} {c : FundingChoice} {op : FundingOp}
  {r : op.Reply}

/-- The choices that count at a call, with what may be asked of the other flows: a LOCK is published
only with a confirmation and while no other flow is still to take its notes back, no drain finds
notes with attempts left whose LOCK was published, and an entry is cleared only while no other flow
is still to write it back. -/
def Unhollowed (sha256Hex : String → String) (others : (FundingOp → Prop) → Prop) :
    FundingOp → FundingWorld → FundingChoice → Prop
  | .lockAndPublish _ oobNotes _, _, .locks published reply =>
    (published = true → confirmsLock (sha256Hex oobNotes) reply = true) ∧
      (confirmsLock (sha256Hex oobNotes) reply = true → others (Takes oobNotes))
  | .loadStash, w, .storage f _ => ∀ entry ∈ (loadFundings f w.stash).values,
    entry.attempts < maxFundingDrainAttempts → entry.oobNotes ∉ w.published
  | .clearFunding escrowId _, w, _ => ∀ live, (fundings w.stash).get escrowId = some live →
    others (WritesBack fun entry => entry.escrowId = escrowId ∧ entry.oobNotes = live.oobNotes)
  | _, _, _ => True

def Unhurried (sha256Hex : String → String) (cfg : Config (fundingPlatform sha256Hex) ι Unit) :
    Event (fundingPlatform sha256Hex) ι FundingFlow → Prop
  | .step i c => ∀ op k, cfg.slots i = some (.call op k) →
    Unhollowed sha256Hex (fun T => ∀ j p, j ≠ i → cfg.slots j = some p → Shuns T p) op cfg.world c
  | _ => True

def ClearedStay (w : FundingWorld) : Prop :=
  ∀ escrowId oobNotes, (escrowId, oobNotes) ∈ w.cleared →
    FundingWorld.holds w.stash escrowId oobNotes = false

/-- What holds of a pending flow. -/
def Sound (sha256Hex : String → String) (p : FundingProg Unit) (w : FundingWorld) : Prop :=
  Shuns (Hollows w) p ∧ Heeds sha256Hex p

theorem holds_eq_false {s : Stored Fundings} {escrowId oobNotes : String} :
    FundingWorld.holds s escrowId oobNotes = false ↔
      ∀ live, (fundings s).get escrowId = some live → live.oobNotes ≠ oobNotes := by
  unfold FundingWorld.holds
  cases (fundings s).get escrowId with
  | none => simp
  | some live => simp

theorem hollows_mono {op : FundingOp} (h : Hollows w' op) (hpublished : w'.published = w.published)
    (hcleared : ∀ e ∈ w'.cleared, e ∈ w.cleared) : Hollows w op := by
  cases op with
  | receiveEcash oobNotes =>
    change oobNotes ∈ w'.published at h
    rw [hpublished] at h
    exact h
  | countAttempt => exact hcleared _ h
  | _ => exact h

theorem hollows_afterLock {oobNotes : String} {published : Bool} {op : FundingOp}
    (h : Hollows (w.afterLock oobNotes published) op) :
    Hollows w op ∨ (published = true ∧ Takes oobNotes op) := by
  unfold FundingWorld.afterLock at h
  split_ifs at h with hpublished
  · cases op with
    | receiveEcash other =>
      rcases List.mem_cons.mp h with rfl | hbefore
      · exact Or.inr ⟨hpublished, rfl⟩
      · exact Or.inl hbefore
    | _ => exact Or.inl h
  · exact Or.inl h

variable {stash : Stored Fundings}

theorem mem_cleared_afterClear {escrowId : String} {e : String × String}
    (h : e ∈ (w.afterClear escrowId stash).cleared) : e ∈ w.cleared ∨
      ∃ live, (fundings w.stash).get escrowId = some live ∧ (fundings stash).get escrowId = none ∧
        e = (escrowId, live.oobNotes) := by
  unfold FundingWorld.afterClear at h
  split at h
  · rename_i live hlive hnone
    rcases List.mem_cons.mp h with rfl | hbefore
    · exact Or.inr ⟨live, hlive, hnone, rfl⟩
    · exact Or.inl hbefore
  · exact Or.inl h

theorem afterClear_published {escrowId : String} :
    (w.afterClear escrowId stash).published = w.published := by
  unfold FundingWorld.afterClear
  split <;> rfl

theorem afterClear_stash {escrowId : String} : (w.afterClear escrowId stash).stash = stash := by
  unfold FundingWorld.afterClear
  split <;> rfl

theorem hollows_afterClear {escrowId : String} {op : FundingOp}
    (h : Hollows (w.afterClear escrowId stash) op) : Hollows w op ∨
      ∃ live, (fundings w.stash).get escrowId = some live ∧
        WritesBack (fun e => e.escrowId = escrowId ∧ e.oobNotes = live.oobNotes) op := by
  cases op with
  | receiveEcash oobNotes =>
    change oobNotes ∈ _ at h
    rw [afterClear_published] at h
    exact Or.inl h
  | countAttempt entry =>
    rcases mem_cleared_afterClear h with hbefore | ⟨live, hlive, -, heq⟩
    · exact Or.inl hbefore
    · obtain ⟨hescrow, hnotes⟩ := Prod.mk.inj heq
      exact Or.inr ⟨live, hlive, entry, rfl, hescrow, hnotes⟩
  | _ => exact Or.inl h

theorem ledger_perform (h : performFunding sha256Hex op w c = some (r, w'))
    (hlock : ∀ escrowId oobNotes opts, op ≠ .lockAndPublish escrowId oobNotes opts)
    (hclear : ∀ escrowId settled, op ≠ .clearFunding escrowId settled) :
    w'.published = w.published ∧ ∀ e ∈ w'.cleared, e ∈ w.cleared := by
  cases op with
  | lockAndPublish => exact absurd rfl (hlock _ _ _)
  | clearFunding => exact absurd rfl (hclear _ _)
  | receiveEcash oobNotes =>
    cases c with
    | returns =>
      obtain ⟨-, rfl⟩ := Prod.mk.inj (Option.some.inj h)
      exact ⟨rfl, fun _ => id⟩
    | throws message landed =>
      obtain ⟨-, rfl⟩ := Prod.mk.inj (Option.some.inj h)
      cases landed <;> exact ⟨rfl, fun _ => id⟩
    | _ => cases h
  | stashFunding =>
    cases c with
    | storage f now =>
      obtain ⟨-, rfl⟩ := Prod.mk.inj (Option.some.inj h)
      exact ⟨rfl, fun _ he => List.mem_of_mem_filter he⟩
    | _ => cases h
  | countAttempt | noteError =>
    cases c with
    | storage f now =>
      obtain ⟨-, rfl⟩ := Prod.mk.inj (Option.some.inj h)
      exact ⟨rfl, fun _ => id⟩
    | _ => cases h
  | _ =>
    rw [perform_of_reads h rfl]
    exact ⟨rfl, fun _ => id⟩

/-! ### One step -/

theorem holds_of_cleared (hstay : ClearedStay w) (hhollows : ¬ Hollows w op)
    (hstash : ∀ input, op ≠ .stashFunding input)
    (h : performFunding sha256Hex op w c = some (r, w')) {escrowId oobNotes : String}
    (hcleared : (escrowId, oobNotes) ∈ w.cleared) :
    FundingWorld.holds w'.stash escrowId oobNotes = false := by
  have hbefore := holds_eq_false.mp (hstay escrowId oobNotes hcleared)
  rw [holds_eq_false]
  intro live hlive hnotes
  rcases fundings_perform h escrowId with hsame | hwrite
  · exact hbefore live (hsame.symm.trans hlive) hnotes
  · rw [hlive] at hwrite
    generalize hget : (fundings w.stash).get escrowId = before at hwrite
    cases hwrite with
    | put puts =>
      cases op with
      | stashFunding input => exact hstash input rfl
      | countAttempt entry =>
        obtain ⟨hescrow, hsame⟩ := Prod.mk.inj (Option.some.inj puts)
        apply hhollows
        change (entry.escrowId, entry.oobNotes) ∈ w.cleared
        rw [hescrow, hsame, hnotes]
        exact hcleared
      | _ => cases puts
    | mark same => exact hbefore _ hget (same.symm.trans hnotes)

theorem ClearedStay.perform (hstay : ClearedStay w) (hhollows : ¬ Hollows w op)
    (h : performFunding sha256Hex op w c = some (r, w')) : ClearedStay w' := by
  intro escrowId oobNotes hcleared
  cases op with
  | stashFunding input =>
    cases c with
    | storage f now =>
      obtain ⟨-, rfl⟩ := Prod.mk.inj (Option.some.inj h)
      have hfiltered := (List.mem_filter.mp hcleared).2
      exact (Bool.not_eq_true' _).mp hfiltered
    | _ => cases h
  | clearFunding escrowId' settled =>
    have hperform := h
    cases c with
    | storage f now =>
      obtain ⟨-, rfl⟩ := Prod.mk.inj (Option.some.inj h)
      rcases mem_cleared_afterClear hcleared with hbefore | ⟨live, -, hnone, heq⟩
      · exact holds_of_cleared hstay hhollows (fun _ h => by cases h) hperform hbefore
      · obtain ⟨rfl, rfl⟩ := Prod.mk.inj heq
        rw [holds_eq_false, afterClear_stash, hnone]
        intro live hlive
        cases hlive
    | _ => cases h
  | lockAndPublish lockedId lockedNotes opts =>
    refine holds_of_cleared hstay hhollows (fun _ h => by cases h) h ?_
    cases c with
    | locks published reply =>
      obtain ⟨-, rfl⟩ := Prod.mk.inj (Option.some.inj h)
      unfold FundingWorld.afterLock at hcleared
      split at hcleared <;> exact hcleared
    | _ => cases h
  | _ =>
    refine holds_of_cleared hstay hhollows (fun _ h => by cases h) h ?_
    exact (ledger_perform h (fun _ _ _ h => by cases h) fun _ _ h => by cases h).2 _ hcleared

variable {others : (FundingOp → Prop) → Prop}

/-- What the step of a flow leaves of the flow itself. -/
theorem Sound.own {k : op.Reply → FundingProg Unit}
    (hsound : Sound sha256Hex (.call op k) w) (hstay : ClearedStay w)
    (hcounts : Unhollowed sha256Hex others op w c)
    (h : performFunding sha256Hex op w c = some (r, w')) : Sound sha256Hex (k r) w' := by
  obtain ⟨⟨-, hshuns⟩, hat, hrest⟩ := hsound
  refine ⟨?_, hrest r⟩
  cases op with
  | generateEcash =>
    rw [perform_of_reads h rfl]
    refine Shuns.mono (hat r) fun op' hhollows => ?_
    cases c with
    | mints oobNotes =>
      unfold performFunding at h
      dsimp only at h
      split_ifs at h with hfresh
      obtain ⟨rfl, -⟩ := Prod.mk.inj (Option.some.inj h)
      cases op' with
      | receiveEcash other =>
        rintro heq
        obtain rfl := Option.some.inj heq
        exact hfresh hhollows
      | countAttempt => trivial
      | _ => exact hhollows
    | throws message landed =>
      obtain ⟨rfl, -⟩ := Prod.mk.inj (Option.some.inj h)
      cases op' with
      | receiveEcash other => exact fun heq => by cases heq
      | countAttempt => trivial
      | _ => exact hhollows
    | _ => cases h
  | loadStash =>
    rw [perform_of_reads h rfl]
    refine Shuns.mono (hat r) fun op' hhollows => ?_
    cases c with
    | storage f now =>
      obtain ⟨rfl, -⟩ := Prod.mk.inj (Option.some.inj h)
      cases op' with
      | receiveEcash oobNotes =>
        rintro entry hentry hattempts rfl
        exact hcounts entry hentry hattempts hhollows
      | countAttempt entry =>
        intro live hlive
        exact holds_eq_false.mp (hstay _ _ hhollows) live (get_loadFundings hlive)
      | _ => exact hhollows
    | _ => cases h
  | lockAndPublish escrowId oobNotes opts =>
    cases c with
    | locks published reply =>
      obtain ⟨rfl, rfl⟩ := Prod.mk.inj (Option.some.inj h)
      have hbefore := hshuns.resolve_left id reply
      by_cases hconfirms : confirmsLock (sha256Hex oobNotes) reply = true
      · refine Prog.Avoids.or hbefore (hat reply hconfirms) fun op' hhollows => ?_
        exact (hollows_afterLock hhollows).imp_right And.right
      · refine Shuns.mono hbefore fun op' hhollows => ?_
        refine (hollows_afterLock hhollows).resolve_right fun hpublished => ?_
        rcases Bool.or_eq_true_iff.mp hpublished.1 with hp | hc
        · exact hconfirms (hcounts.1 hp)
        · exact hconfirms hc
    | _ => cases h
  | clearFunding escrowId settled =>
    cases c with
    | storage f now =>
      obtain ⟨-, rfl⟩ := Prod.mk.inj (Option.some.inj h)
      refine Prog.Avoids.or (hshuns.resolve_left id r) hat fun op' hhollows => ?_
      refine (hollows_afterClear hhollows).imp_right ?_
      rintro ⟨live, -, entry, rfl, hescrow, -⟩
      exact ⟨entry, rfl, hescrow⟩
    | _ => cases h
  | _ =>
    refine Shuns.mono (hshuns.resolve_left id r) fun op' hhollows => ?_
    obtain ⟨hpublished, hcleared⟩ :=
      ledger_perform h (fun _ _ _ h => by cases h) fun _ _ h => by cases h
    exact hollows_mono hhollows hpublished hcleared

/-- What the step of a flow leaves of another. -/
theorem Sound.bystander {p : FundingProg Unit}
    (hothers : ∀ T, others T → Shuns T p) (hsound : Sound sha256Hex p w)
    (hcounts : Unhollowed sha256Hex others op w c)
    (h : performFunding sha256Hex op w c = some (r, w')) : Sound sha256Hex p w' := by
  refine ⟨?_, hsound.2⟩
  cases op with
  | lockAndPublish escrowId oobNotes opts =>
    cases c with
    | locks published reply =>
      obtain ⟨-, rfl⟩ := Prod.mk.inj (Option.some.inj h)
      by_cases hconfirms : confirmsLock (sha256Hex oobNotes) reply = true
      · refine Prog.Avoids.or hsound.1 (hothers _ (hcounts.2 hconfirms)) fun op' hhollows => ?_
        exact (hollows_afterLock hhollows).imp_right And.right
      · refine Shuns.mono hsound.1 fun op' hhollows => ?_
        refine (hollows_afterLock hhollows).resolve_right fun hpublished => ?_
        rcases Bool.or_eq_true_iff.mp hpublished.1 with hp | hc
        · exact hconfirms (hcounts.1 hp)
        · exact hconfirms hc
    | _ => cases h
  | clearFunding escrowId settled =>
    cases c with
    | storage f now =>
      obtain ⟨-, rfl⟩ := Prod.mk.inj (Option.some.inj h)
      cases hlive : (fundings w.stash).get escrowId with
      | none =>
        refine Shuns.mono hsound.1 fun op' hhollows => ?_
        refine (hollows_afterClear hhollows).resolve_right ?_
        rintro ⟨live, hsome, -⟩
        rw [hlive] at hsome
        cases hsome
      | some live =>
        refine Prog.Avoids.or hsound.1 (hothers _ (hcounts live hlive)) fun op' hhollows => ?_
        refine (hollows_afterClear hhollows).imp_right ?_
        rintro ⟨live', hsome, hback⟩
        rw [hlive] at hsome
        obtain rfl := Option.some.inj hsome
        exact hback
    | _ => cases h
  | _ =>
    refine Shuns.mono hsound.1 fun op' hhollows => ?_
    obtain ⟨hpublished, hcleared⟩ :=
      ledger_perform h (fun _ _ _ h => by cases h) fun _ _ h => by cases h
    exact hollows_mono hhollows hpublished hcleared

/-! ### Runs -/

/-- In every interleaving of fundings, drains and the functions of the stash in which every
published LOCK is confirmed, no drain reads the stash while it holds notes of a published LOCK, and
no flow publishes or clears what another is still to take or to write back, notes whose LOCK was
published are never taken back, and no drain writes back an entry that was cleared. -/
theorem locked_notes_stay (sha256Hex : String → String)
    {cfg : Config (fundingPlatform sha256Hex) ι Unit}
    (h : Run (Config.exec (fundingFlow sha256Hex))
      (Idle fun w : FundingWorld => w.cleared = []) (Unhurried sha256Hex) cfg)
    {i : ι} {op : FundingOp} {k : op.Reply → FundingProg Unit}
    (hpending : cfg.slots i = some (.call op k)) :
    (∀ oobNotes, op = .receiveEcash oobNotes → oobNotes ∉ cfg.world.published) ∧
      ∀ entry, op = .countAttempt entry →
        (entry.escrowId, entry.oobNotes) ∉ cfg.world.cleared := by
  have hslots := slots_invariant (J := ClearedStay) (K := Sound sha256Hex) ?_ ?_ ?_ ?_ h
  · have hspares : ¬ Hollows cfg.world op := (hslots.2 i _ hpending).1.1
    constructor
    · rintro oobNotes rfl
      exact hspares
    · rintro entry rfl
      exact hspares
  · rintro cfg ⟨w, hcleared, rfl⟩
    refine ⟨fun escrowId oobNotes hmem => ?_, fun i p hp => by cases hp⟩
    change _ ∈ w.cleared at hmem
    rw [hcleared] at hmem
    cases hmem
  · exact fun w flow _ => ⟨shuns_fundingFlow recovers_of_hollows flow, heeds_fundingFlow flow⟩
  · intro cfg i c op k r w' hcounts hp hstay hsound hperform
    have hstep := hcounts op k hp
    refine ⟨hstay.perform hsound.1.1 hperform, hsound.own hstay hstep hperform, ?_⟩
    exact fun j p hj hpj hother =>
      hother.bystander (fun T hothers => hothers j p hj hpj) hstep hperform
  · intro cfg c w' _ _ hdrift
    cases hdrift

end Runs

/-! ### Sample runs -/

/-- The notes that a flow is about to take back. -/
def taking : Option (FundingProg Unit) → Option String
  | some (.call (.receiveEcash oobNotes) _) => some oobNotes
  | _ => none

theorem taking_eq_some {p : Option (FundingProg Unit)} {oobNotes : String}
    (h : taking p = some oobNotes) : ∃ k, p = some (.call (.receiveEcash oobNotes) k) := by
  unfold taking at h
  split at h
  · rename_i oobNotes' k
    obtain rfl := Option.some.inj h
    exact ⟨k, rfl⟩
  · cases h

def writingBack : Option (FundingProg Unit) → Option PendingFunding
  | some (.call (.countAttempt entry) _) => some entry
  | _ => none

theorem writingBack_eq_some {p : Option (FundingProg Unit)} {entry : PendingFunding}
    (h : writingBack p = some entry) : ∃ k, p = some (.call (.countAttempt entry) k) := by
  unfold writingBack at h
  split at h
  · rename_i entry' k
    obtain rfl := Option.some.inj h
    exact ⟨k, rfl⟩
  · cases h

/-- The page is closed after the LOCK of `a` was published; the next drain takes `a` back.  A drain
that has read the stash before the LOCK is published writes the entry of `a` back after its
clearing. -/
theorem locked_notes_taken :
    (∃ cfg : Config samplePlatform Unit Unit,
      Run (Config.exec (fundingFlow fun _ => "h"))
        (Idle fun w : FundingWorld => w.cleared = []) (fun _ _ => True) cfg ∧
      ∃ oobNotes, (∃ k, cfg.slots () = some (.call (.receiveEcash oobNotes) k)) ∧
        oobNotes ∈ cfg.world.published) ∧
    ∃ cfg : Config samplePlatform Bool Unit,
      Run (Config.exec (fundingFlow fun _ => "h"))
        (Idle fun w : FundingWorld => w.cleared = []) (fun _ _ => True) cfg ∧
      ∃ entry, (∃ k, cfg.slots false = some (.call (.countAttempt entry) k)) ∧
        (entry.escrowId, entry.oobNotes) ∈ cfg.world.cleared := by
  constructor
  · have hrun : ∃ cfg : Config samplePlatform Unit Unit,
        Run (Config.exec (fundingFlow fun _ => "h"))
          (Idle fun w : FundingWorld => w.cleared = []) (fun _ _ => True) cfg ∧
        (taking (cfg.slots ())).any (fun oobNotes => oobNotes ∈ cfg.world.published) = true :=
      Run.exists_of_checked ⟨{}, rfl, rfl⟩ (fun _ _ => true) (fun _ _ _ => trivial)
        ([.start () sampleFund] ++ stepsOf () (stashSteps "a" ++ publishSteps) ++
          [.stop (), .start () .drain] ++
          stepsOf () [.answers true, .storage .none 0, .storage .none 0]) (by decide +kernel)
    obtain ⟨cfg, hrun, htest⟩ := hrun
    obtain ⟨oobNotes, htaking, hpublished⟩ := (Option.any_eq_true _ _).mp htest
    exact ⟨cfg, hrun, oobNotes, taking_eq_some htaking, of_decide_eq_true hpublished⟩
  · have hrun : ∃ cfg : Config samplePlatform Bool Unit,
        Run (Config.exec (fundingFlow fun _ => "h"))
          (Idle fun w : FundingWorld => w.cleared = []) (fun _ _ => True) cfg ∧
        (writingBack (cfg.slots false)).any
          (fun entry => (entry.escrowId, entry.oobNotes) ∈ cfg.world.cleared) = true :=
      Run.exists_of_checked ⟨{}, rfl, rfl⟩ (fun _ _ => true) (fun _ _ _ => trivial)
        ([.start true sampleFund] ++ stepsOf true (stashSteps "a") ++ [.start false .drain] ++
          stepsOf false [.answers true, .storage .none 0] ++ stepsOf true publishSteps ++
          stepsOf true [.storage .none 0]) (by decide +kernel)
    obtain ⟨cfg, hrun, htest⟩ := hrun
    obtain ⟨entry, hback, hcleared⟩ := (Option.any_eq_true _ _).mp htest
    exact ⟨cfg, hrun, entry, writingBack_eq_some hback, of_decide_eq_true hcleared⟩

def disturbsNothing (cfg : Config samplePlatform Unit Unit) :
    Event samplePlatform Unit FundingFlow → Bool
  | .step _ c =>
    match cfg.slots () with
    | some (.call (.lockAndPublish _ _ _) _) =>
      match c with
      | .locks published reply => !published || confirmsLock "h" reply
      | _ => true
    | some (.call .loadStash _) =>
      match c with
      | .storage f _ => (loadFundings f cfg.world.stash).values.all fun entry =>
        entry.oobNotes ∉ cfg.world.published
      | _ => true
    | _ => true
  | _ => true

theorem unhurried_of_disturbsNothing (cfg : Config samplePlatform Unit Unit)
    (ev : Event samplePlatform Unit FundingFlow) (h : disturbsNothing cfg ev = true) :
    Unhurried (fun _ => "h") cfg ev := by
  cases ev with
  | step i c =>
    intro op k hpending
    have halone {T : FundingOp → Prop} : ∀ (j : Unit) p, j ≠ i → cfg.slots j = some p → Shuns T p :=
      fun j _ hj => absurd (Subsingleton.elim j i) hj
    unfold disturbsNothing at h
    rw [show cfg.slots () = some (.call op k) from hpending] at h
    cases op with
    | lockAndPublish =>
      cases c with
      | locks published reply =>
        refine ⟨?_, fun _ => halone⟩
        rintro rfl
        exact h
      | _ => trivial
    | loadStash =>
      cases c with
      | storage f now =>
        intro entry hentry _
        exact of_decide_eq_true (List.all_eq_true.mp h entry hentry)
      | _ => trivial
    | clearFunding => exact fun _ _ => halone
    | _ => trivial
  | _ => trivial

/-- After the LOCK of `a` a funding with `b` is cut off, and a drain takes `b` back. -/
theorem locked_notes_stay_drained : ∃ cfg : Config samplePlatform Unit Unit,
    cfg.world.published = ["a"] ∧ ∃ k, cfg.slots () = some (.call (.receiveEcash "b") k) ∧
      "b" ∉ cfg.world.published := by
  have hrun : ∃ cfg : Config samplePlatform Unit Unit,
      Run (Config.exec (fundingFlow fun _ => "h"))
        (Idle fun w : FundingWorld => w.cleared = []) (Unhurried fun _ => "h") cfg ∧
      (cfg.world.published = ["a"] && taking (cfg.slots ()) = some "b") = true :=
    Run.exists_of_checked ⟨{}, rfl, rfl⟩ disturbsNothing unhurried_of_disturbsNothing
      ([.start () sampleFund] ++ stepsOf () (stashSteps "a" ++ publishSteps ++
          [.storage .none 0]) ++
        [.start () sampleFund] ++ stepsOf () (stashSteps "b") ++ [.stop (), .start () .drain] ++
        stepsOf () [.answers true, .storage .none 0, .storage .none 0]) (by decide +kernel)
  obtain ⟨cfg, hrun, htest⟩ := hrun
  obtain ⟨hpublished, htaking⟩ := Bool.and_eq_true_iff.mp htest
  obtain ⟨k, hpending⟩ := taking_eq_some (of_decide_eq_true htaking)
  exact ⟨cfg, of_decide_eq_true hpublished, k, hpending,
    (locked_notes_stay _ hrun hpending).1 "b" rfl⟩

end ChamaEscrow
