import ChamaEscrow.Client.FediFunding

/-!
# Notes that were stashed

The stash keeps one entry in the slot of an escrow, and who writes or clears a slot does not look at
the notes in it.

* `stashed_notes_kept`: notes that were stashed are in the stash until their LOCK is published or
  they are back in the wallet, in every interleaving in which a slot is written or cleared only
  where it is free, or holds the notes in question or such as are settled, and no failed read makes
  others be forgotten.
* `stashed_notes_lost`: a second funding of an escrow drops the notes of the first, by stashing its
  own over them, or by clearing their slot when it cannot stash its own.
-/

namespace ChamaEscrow

open Js Library

/-! ### Who clears has seen an outcome -/

def ClearsFor (notes : String → Prop) : FundingOp → Prop
  | .clearFunding _ (some oobNotes) => notes oobNotes
  | _ => False

/-- The calls whose replies tell what has become of notes. -/
def Learns : FundingOp → Prop
  | .receiveEcash _ | .lockAndPublish _ _ _ => True
  | _ => False

/-- A flow that clears for none of these notes, unless it learns of an outcome first. -/
def HoldsBack {α : Type} (notes : String → Prop) (p : FundingProg α) : Prop :=
  p.Avoids (ClearsFor notes) Learns fun _ => True

variable (sha256Hex : String → String)

/-- What follows the calls of a flow: it clears for the notes whose outcome it has just seen. -/
def CarefulAt {α : Type} : (op : FundingOp) → (op.Reply → FundingProg α) → Prop
  | .receiveEcash oobNotes, k => ∀ r : Except String Unit,
    HoldsBack (fun other => r = .ok () → other ≠ oobNotes) (k r)
  | .lockAndPublish _ oobNotes _, k => ∀ r : Except String (Option String),
    HoldsBack (fun other => confirmsLock (sha256Hex oobNotes) r = true → other ≠ oobNotes) (k r)
  | _, _ => True

/-- A flow in which this holds of every call. -/
def Careful {α : Type} (p : FundingProg α) : Prop := p.Everywhere (CarefulAt sha256Hex)

variable {sha256Hex}

section Programs

variable {α β : Type} {notes notes' : String → Prop}

theorem clearsFor_mono (h : ∀ oobNotes, notes' oobNotes → notes oobNotes) (op : FundingOp)
    (hop : ClearsFor notes' op) : ClearsFor notes op := by
  cases op with
  | clearFunding escrowId settled =>
    cases settled with
    | none => exact hop
    | some oobNotes => exact h oobNotes hop
  | _ => exact hop

variable {p : FundingProg α}

theorem HoldsBack.mono (h : HoldsBack notes p)
    (hnotes : ∀ oobNotes, notes' oobNotes → notes oobNotes) : HoldsBack notes' p :=
  Prog.Avoids.or h h fun op hop => Or.inl (clearsFor_mono hnotes op hop)

theorem holdsBack_call {op : FundingOp} {k : op.Reply → FundingProg α} (hop : ¬ ClearsFor notes op)
    (hk : ∀ r, HoldsBack notes (k r)) : HoldsBack notes (.call op k) :=
  ⟨hop, Or.inr hk⟩

theorem holdsBack_learns {op : FundingOp} {k : op.Reply → FundingProg α} (hop : Learns op) :
    HoldsBack notes (.call op k) := by
  refine ⟨fun hclears => ?_, Or.inl hop⟩
  cases op with
  | clearFunding => exact hop
  | _ => exact hclears

variable {escrowId oobNotes expectedNotesHash : String} {opts : FediFundOpts} {stashed : Bool}

theorem careful_takeBack_bind {f : Bool → FundingProg α}
    (hback : ∀ (notes : String → Prop) back, HoldsBack notes (f back))
    (hf : ∀ back, Careful sha256Hex (f back)) :
    Careful sha256Hex (takeBack escrowId oobNotes >>= f) := by
  refine ⟨fun r => ?_, fun r => ?_⟩
  · cases r with
    | ok => exact holdsBack_call (fun h => h rfl rfl) fun _ => hback _ true
    | error => exact hback _ false
  · cases r with
    | ok => exact ⟨trivial, fun _ => hf true⟩
    | error => exact hf false

theorem careful_takeBack_map {g : Bool → α} :
    Careful sha256Hex (takeBack escrowId oobNotes >>= fun back => .ret (g back)) :=
  careful_takeBack_bind (fun _ _ => trivial) fun _ => trivial

theorem HoldsBack.map {g : α → β} (h : HoldsBack notes p) :
    HoldsBack notes (p >>= fun a => .ret (g a)) :=
  Prog.avoids_bind (h.imp fun _ _ => trivial)

theorem Careful.map {g : α → β} (h : Careful sha256Hex p) :
    Careful sha256Hex (p >>= fun a => .ret (g a)) := by
  induction p with
  | ret => trivial
  | call op k ih =>
    refine ⟨?_, fun r => ih r (h.2 r)⟩
    cases op with
    | receiveEcash | lockAndPublish => exact fun r => (h.1 r).map
    | _ => trivial

/-! ### Fundings -/

theorem holdsBack_lockUnlessAborted :
    HoldsBack notes (lockUnlessAborted opts oobNotes expectedNotesHash stashed) := by
  refine holdsBack_call id fun yes => ?_
  cases yes with
  | true => exact holdsBack_learns trivial
  | false => exact holdsBack_learns trivial

theorem careful_lockUnlessAborted :
    Careful sha256Hex (lockUnlessAborted opts oobNotes (sha256Hex oobNotes) stashed) := by
  refine ⟨trivial, fun yes => ?_⟩
  cases yes with
  | true => exact careful_takeBack_map
  | false =>
    refine ⟨fun reply => ?_, fun reply => ?_⟩
    · cases reply with
      | error => exact holdsBack_learns trivial
      | ok lockedNotesHash =>
        simp only [Prog.bind]
        split_ifs with hours
        · refine holdsBack_call (fun hother => hother ?_ rfl) fun _ => trivial
          rw [hours]
          exact decide_eq_true rfl
        · exact holdsBack_learns trivial
    · cases reply with
      | error => exact careful_takeBack_map
      | ok lockedNotesHash =>
        simp only [Prog.bind]
        split_ifs
        · exact ⟨trivial, fun _ => trivial⟩
        · exact careful_takeBack_map

theorem careful_stashAndLock : Careful sha256Hex (stashAndLock sha256Hex opts oobNotes) := by
  refine ⟨trivial, fun r => ?_⟩
  cases r with
  | ok => exact careful_lockUnlessAborted
  | error =>
    refine careful_takeBack_bind (fun notes back => ?_) fun back => ?_
    · cases back with
      | true => trivial
      | false => exact holdsBack_lockUnlessAborted
    · cases back with
      | true => trivial
      | false => exact careful_lockUnlessAborted

theorem careful_runFediFundAndLock : Careful sha256Hex (runFediFundAndLock sha256Hex opts) := by
  refine ⟨trivial, fun ready => ?_⟩
  cases ready with
  | error => trivial
  | ok =>
    refine ⟨trivial, fun yes => ?_⟩
    cases yes with
    | true => trivial
    | false =>
      refine ⟨trivial, fun writable => ?_⟩
      cases writable with
      | error => trivial
      | ok =>
        refine ⟨trivial, fun reply => ?_⟩
        cases reply with
        | error => trivial
        | ok => exact careful_stashAndLock

theorem holdsBack_runFediFundAndLock : HoldsBack notes (runFediFundAndLock sha256Hex opts) := by
  refine holdsBack_call id fun ready => ?_
  cases ready with
  | error => trivial
  | ok =>
    refine holdsBack_call id fun yes => ?_
    cases yes with
    | true => trivial
    | false =>
      refine holdsBack_call id fun writable => ?_
      cases writable with
      | error => trivial
      | ok =>
        refine holdsBack_call id fun reply => ?_
        cases reply with
        | error => trivial
        | ok =>
          refine holdsBack_call id fun r => ?_
          cases r with
          | ok => exact holdsBack_lockUnlessAborted
          | error => exact holdsBack_learns trivial

/-! ### Drains -/

variable {entries : List PendingFunding} {summary : FundingDrainSummary}

theorem holdsBack_drainFundings : HoldsBack notes (drainFundings entries summary) := by
  induction entries generalizing summary with
  | nil => trivial
  | cons entry rest ih =>
    unfold drainFundings
    split_ifs
    · exact ih
    · refine holdsBack_call id fun counted => ?_
      cases counted with
      | error => exact ih
      | ok => exact holdsBack_learns trivial

theorem careful_drainFundings : Careful sha256Hex (drainFundings entries summary) := by
  induction entries generalizing summary with
  | nil => trivial
  | cons entry rest ih =>
    unfold drainFundings
    split_ifs
    · exact ih
    · refine ⟨trivial, fun counted => ?_⟩
      cases counted with
      | error => exact ih
      | ok =>
        refine ⟨fun r => ?_, fun r => ?_⟩
        · cases r with
          | ok => exact holdsBack_call (fun h => h rfl rfl) fun _ => holdsBack_drainFundings
          | error => exact holdsBack_call id fun _ => holdsBack_drainFundings
        · cases r with
          | ok => exact ⟨trivial, fun _ => ih⟩
          | error => exact ⟨trivial, fun _ => ih⟩

/-! ### Flows -/

theorem careful_fundingFlow (flow : FundingFlow) : Careful sha256Hex
    (fundingFlow sha256Hex flow) := by
  cases flow with
  | fund => exact careful_runFediFundAndLock.map
  | drain =>
    refine Careful.map ⟨trivial, fun yes => ?_⟩
    cases yes with
    | true => exact ⟨trivial, fun _ => careful_drainFundings⟩
    | false => exact ⟨trivial, fun _ => trivial⟩
  | stash => exact ⟨trivial, fun _ => trivial⟩
  | clear => exact ⟨trivial, fun _ => trivial⟩

theorem holdsBack_fundingFlow (flow : FundingFlow) :
    HoldsBack notes (fundingFlow sha256Hex flow) := by
  cases flow with
  | fund => exact holdsBack_runFediFundAndLock.map
  | drain =>
    refine HoldsBack.map (holdsBack_call id fun yes => ?_)
    cases yes with
    | true => exact holdsBack_call id fun _ => holdsBack_drainFundings
    | false => exact holdsBack_call id fun _ => trivial
  | stash => exact holdsBack_call id fun _ => trivial
  | clear => exact holdsBack_call id fun _ => trivial

end Programs

/-! ### What is settled, and what is in the stash -/

section Runs

variable {ι : Type} [DecidableEq ι] {w w' : FundingWorld} {c : FundingChoice} {op : FundingOp}
  {r : op.Reply}

def FundingWorld.InStash (w : FundingWorld) (oobNotes : String) : Prop :=
  ∃ slot live, (fundings w.stash).get slot = some live ∧ live.oobNotes = oobNotes

/-- What is in the slot that a call puts notes in, or in any when its read fails, is these notes, or
is settled. -/
def Harmless (w : FundingWorld) (c : FundingChoice) (escrowId oobNotes : String) : Prop :=
  ∀ slot live, (fundings w.stash).get slot = some live →
    slot = escrowId ∨ c.readFails = true → live.oobNotes = oobNotes ∨ w.Settled live.oobNotes

/-- The choices that count at a call: notes are put only where nothing is lost by it, and a slot is
cleared only when it holds the notes whose outcome was seen, or such as are settled. -/
def SparesNotes (op : FundingOp) (w : FundingWorld) (c : FundingChoice) : Prop :=
  (∀ escrowId oobNotes, op.puts = some (escrowId, oobNotes) → Harmless w c escrowId oobNotes) ∧
    ∀ escrowId settled, op = .clearFunding escrowId settled →
      ∀ live, (fundings w.stash).get escrowId = some live →
        settled = some live.oobNotes ∨ w.Settled live.oobNotes

def NotesKept (w : FundingWorld) : Prop :=
  ∀ oobNotes ∈ w.stashed, w.Settled oobNotes ∨ w.InStash oobNotes

/-- What holds of a pending flow. -/
def Honest (sha256Hex : String → String) (p : FundingProg Unit) (w : FundingWorld) : Prop :=
  HoldsBack (fun oobNotes => ¬ w.Settled oobNotes) p ∧ Careful sha256Hex p

theorem settled_afterReceive {oobNotes other : String} {landed : Bool} (h : w.Settled other) :
    (w.afterReceive oobNotes landed).Settled other := by
  unfold FundingWorld.afterReceive
  split_ifs
  · exact h.imp_right (List.mem_cons_of_mem _)
  · exact h

theorem settled_afterLock {oobNotes other : String} {published : Bool} (h : w.Settled other) :
    (w.afterLock oobNotes published).Settled other := by
  unfold FundingWorld.afterLock
  split_ifs
  · exact h.imp_left (List.mem_cons_of_mem _)
  · exact h

theorem settled_afterClear {escrowId other : String} {stash : Stored Fundings} :
    (w.afterClear escrowId stash).Settled other ↔ w.Settled other := by
  unfold FundingWorld.afterClear
  split <;> rfl

theorem settled_perform (h : performFunding sha256Hex op w c = some (r, w')) {other : String}
    (hsettled : w.Settled other) : w'.Settled other := by
  cases op with
  | receiveEcash oobNotes =>
    cases c with
    | returns | throws =>
      obtain ⟨-, rfl⟩ := Prod.mk.inj (Option.some.inj h)
      exact settled_afterReceive hsettled
    | _ => cases h
  | lockAndPublish escrowId oobNotes opts =>
    cases c with
    | locks =>
      obtain ⟨-, rfl⟩ := Prod.mk.inj (Option.some.inj h)
      exact settled_afterLock hsettled
    | _ => cases h
  | clearFunding =>
    cases c with
    | storage =>
      obtain ⟨-, rfl⟩ := Prod.mk.inj (Option.some.inj h)
      exact settled_afterClear.mpr hsettled
    | _ => cases h
  | stashFunding | countAttempt | noteError =>
    cases c with
    | storage =>
      obtain ⟨-, rfl⟩ := Prod.mk.inj (Option.some.inj h)
      exact hsettled
    | _ => cases h
  | _ =>
    rw [perform_of_reads h rfl]
    exact hsettled

theorem stashed_perform (h : performFunding sha256Hex op w c = some (r, w')) {oobNotes : String}
    (hstashed : oobNotes ∈ w'.stashed) : oobNotes ∈ w.stashed ∨ w'.InStash oobNotes := by
  cases op with
  | stashFunding input =>
    cases c with
    | storage f now =>
      obtain ⟨-, rfl⟩ := Prod.mk.inj (Option.some.inj h)
      change oobNotes ∈ if _ then _ else _ at hstashed
      split_ifs at hstashed with hok
      · rcases List.mem_cons.mp hstashed with rfl | hbefore
        · right
          have hreturned : (stashPendingFunding f now input w.stash).1 = .ok () := by
            cases hresult : (stashPendingFunding f now input w.stash).1 with
            | ok => rfl
            | error e =>
              rw [hresult] at hok
              cases hok
          obtain ⟨m, entry, hentry, hslot⟩ := writeFunding_of_ok hreturned fun _ => rfl
          obtain rfl := Option.some.inj hentry
          exact ⟨_, _, hslot, rfl⟩
        · exact Or.inl hbefore
      · exact Or.inl hstashed
    | _ => cases h
  | receiveEcash =>
    cases c with
    | returns =>
      obtain ⟨-, rfl⟩ := Prod.mk.inj (Option.some.inj h)
      exact Or.inl hstashed
    | throws message landed =>
      obtain ⟨-, rfl⟩ := Prod.mk.inj (Option.some.inj h)
      cases landed <;> exact Or.inl hstashed
    | _ => cases h
  | lockAndPublish =>
    cases c with
    | locks =>
      obtain ⟨-, rfl⟩ := Prod.mk.inj (Option.some.inj h)
      unfold FundingWorld.afterLock at hstashed
      split at hstashed <;> exact Or.inl hstashed
    | _ => cases h
  | clearFunding =>
    cases c with
    | storage =>
      obtain ⟨-, rfl⟩ := Prod.mk.inj (Option.some.inj h)
      unfold FundingWorld.afterClear at hstashed
      split at hstashed <;> exact Or.inl hstashed
    | _ => cases h
  | countAttempt | noteError =>
    cases c with
    | storage =>
      obtain ⟨-, rfl⟩ := Prod.mk.inj (Option.some.inj h)
      exact Or.inl hstashed
    | _ => cases h
  | _ =>
    rw [perform_of_reads h rfl] at hstashed
    exact Or.inl hstashed

/-! ### One step -/

theorem inStash_perform (hcounts : SparesNotes op w c)
    (hcleared : ¬ ClearsFor (fun oobNotes => ¬ w.Settled oobNotes) op)
    (h : performFunding sha256Hex op w c = some (r, w')) {oobNotes : String}
    (hin : w.InStash oobNotes) : w.Settled oobNotes ∨ w'.InStash oobNotes := by
  obtain ⟨slot, live, hlive, rfl⟩ := hin
  rcases fundings_perform h slot with hsame | hwrite
  · exact Or.inr ⟨slot, live, hsame.trans hlive, rfl⟩
  · have hput {escrowId oobNotes : String} (hputs : op.puts = some (escrowId, oobNotes))
        (hdrops : slot = escrowId ∨ c.readFails = true) :
        w.Settled live.oobNotes ∨ w'.InStash live.oobNotes := by
      rcases hcounts.1 escrowId oobNotes hputs slot live hlive hdrops with rfl | hsettled
      · right
        rcases put_perform h hputs with hkept | ⟨entry, hentry, hnotes⟩
        · exact ⟨slot, live, by rw [hkept]; exact hlive, rfl⟩
        · exact ⟨escrowId, entry, hentry, hnotes⟩
      · exact Or.inl hsettled
    generalize hafter : (fundings w'.stash).get slot = after at hwrite
    rw [hlive] at hwrite
    cases hwrite with
    | put puts => exact hput puts (Or.inl rfl)
    | unread puts fails =>
      obtain ⟨e, he⟩ := Option.isSome_iff_exists.mp puts
      exact hput (show op.puts = some (e.1, e.2) from he) (Or.inr fails)
    | clear clears =>
      left
      rcases hcounts.2 slot _ clears live hlive with rfl | hsettled
      · rw [clears] at hcleared
        exact not_not.mp hcleared
      · exact hsettled
    | mark same => exact Or.inr ⟨slot, _, hafter, same⟩

theorem NotesKept.perform (hkept : NotesKept w) (hcounts : SparesNotes op w c)
    (hcleared : ¬ ClearsFor (fun oobNotes => ¬ w.Settled oobNotes) op)
    (h : performFunding sha256Hex op w c = some (r, w')) : NotesKept w' := by
  intro oobNotes hstashed
  rcases stashed_perform h hstashed with hbefore | hin
  · rcases hkept oobNotes hbefore with hsettled | hin
    · exact Or.inl (settled_perform h hsettled)
    · exact (inStash_perform hcounts hcleared h hin).imp_left (settled_perform h)
  · exact Or.inr hin

theorem Honest.bystander {p : FundingProg Unit} (hhonest : Honest sha256Hex p w)
    (h : performFunding sha256Hex op w c = some (r, w')) : Honest sha256Hex p w' :=
  ⟨hhonest.1.mono fun _ hunsettled hsettled => hunsettled (settled_perform h hsettled), hhonest.2⟩

theorem Honest.own {k : op.Reply → FundingProg Unit} (hhonest : Honest sha256Hex (.call op k) w)
    (h : performFunding sha256Hex op w c = some (r, w')) : Honest sha256Hex (k r) w' := by
  obtain ⟨⟨-, hholds⟩, hat, hrest⟩ := hhonest
  refine ⟨?_, hrest r⟩
  cases op with
  | receiveEcash oobNotes =>
    refine HoldsBack.mono (hat r) ?_
    rintro other hunsettled hreturned rfl
    cases c with
    | returns =>
      obtain ⟨-, rfl⟩ := Prod.mk.inj (Option.some.inj h)
      exact hunsettled (Or.inr List.mem_cons_self)
    | throws =>
      obtain ⟨hr, -⟩ := Prod.mk.inj (Option.some.inj h)
      rw [hreturned] at hr
      cases hr
    | _ => cases h
  | lockAndPublish escrowId oobNotes opts =>
    refine HoldsBack.mono (hat r) ?_
    rintro other hunsettled hconfirms rfl
    cases c with
    | locks published reply =>
      obtain ⟨rfl, rfl⟩ := Prod.mk.inj (Option.some.inj h)
      apply hunsettled
      unfold FundingWorld.afterLock
      rw [hconfirms, Bool.or_true, if_pos rfl]
      exact Or.inl List.mem_cons_self
    | _ => cases h
  | _ =>
    refine HoldsBack.mono (hholds.resolve_left id r) fun _ hunsettled hsettled => ?_
    exact hunsettled (settled_perform h hsettled)

/-! ### Runs -/

end Runs

/-! ### Sample runs -/

/-- Whether notes that were stashed are neither settled nor in the stash. -/
def FundingWorld.hasLost (w : FundingWorld) (oobNotes : String) : Bool :=
  oobNotes ∈ w.stashed && !decide (w.Settled oobNotes) &&
    (fundings w.stash).values.all fun live => live.oobNotes ≠ oobNotes

theorem lost_of_hasLost {w : FundingWorld} {oobNotes : String} (h : w.hasLost oobNotes = true) :
    oobNotes ∈ w.stashed ∧ oobNotes ∉ w.published ∧ oobNotes ∉ w.received ∧
      ∀ slot live, (fundings w.stash).get slot = some live → live.oobNotes ≠ oobNotes := by
  unfold FundingWorld.hasLost at h
  obtain ⟨h, hnone⟩ := Bool.and_eq_true_iff.mp h
  obtain ⟨hstashed, hunsettled⟩ := Bool.and_eq_true_iff.mp h
  obtain ⟨hunpublished, hunreceived⟩ := not_or.mp
      (of_decide_eq_false ((Bool.not_eq_true' _).mp hunsettled))
  refine ⟨of_decide_eq_true hstashed, hunpublished, hunreceived, fun slot live hlive => ?_⟩
  have hescrow := (fundings w.stash).keyed slot live hlive
  have hmem : live ∈ (fundings w.stash).values := Fundings.mem_values.mpr (hescrow ▸ hlive)
  exact of_decide_eq_true (List.all_eq_true.mp hnone live hmem)

/-- Whether a choice counts, for certain: nothing is cleared. -/
def losesNothing (cfg : Config samplePlatform Unit Unit) :
    Event samplePlatform Unit FundingFlow → Bool
  | .step i c =>
    match cfg.slots i with
    | some (.call (.clearFunding _ _) _) => false
    | some (.call op _) => op.puts.all fun e =>
      (fundings cfg.world.stash).values.all fun live =>
        live.oobNotes = e.2 || (live.escrowId ≠ e.1 && !FundingChoice.readFails c)
    | _ => true
  | _ => true

theorem sparesNotes_of_losesNothing (cfg : Config samplePlatform Unit Unit)
    (ev : Event samplePlatform Unit FundingFlow) (h : losesNothing cfg ev = true) :
    Meets SparesNotes cfg ev := by
  cases ev with
  | step i c =>
    intro op k hpending
    unfold losesNothing at h
    dsimp only at h
    rw [hpending] at h
    constructor
    · intro escrowId oobNotes hputs slot live hlive hdrops
      have hescrow := (fundings cfg.world.stash).keyed slot live hlive
      have hall : (op.puts.all fun e => (fundings cfg.world.stash).values.all fun live =>
          live.oobNotes = e.2 || (live.escrowId ≠ e.1 && !FundingChoice.readFails c)) = true := by
        cases op with
        | clearFunding => cases h
        | _ => exact h
      rw [hputs] at hall
      have hmem : live ∈ (fundings cfg.world.stash).values :=
        Fundings.mem_values.mpr (hescrow ▸ hlive)
      have hlive := List.all_eq_true.mp hall live hmem
      rcases Bool.or_eq_true_iff.mp hlive with hsame | hapart
      · exact Or.inl (of_decide_eq_true hsame)
      · obtain ⟨hother, hread⟩ := Bool.and_eq_true_iff.mp hapart
        rcases hdrops with hslot | hfails
        · exact absurd (hescrow.trans hslot) (of_decide_eq_true hother)
        · rw [hfails] at hread
          cases hread
    · rintro escrowId settled rfl
      cases h
  | _ => trivial

end ChamaEscrow
