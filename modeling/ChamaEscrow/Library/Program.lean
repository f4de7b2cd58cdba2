import ChamaEscrow.Library.Machine
import Mathlib.Logic.Function.Basic

/-!
# Programs that call operations

A program in direct style calls operations of its surroundings one after the other: storage, a
wallet, a relay.  Here it is the tree of its calls (`Prog`), and what the operations do to the world
is a `Platform`, with a choice for everything that the caller does not control.  Runs of a program
share a world (`Config`): each has a slot, an event lets one run take one step, starts a run, stops
one where it stands, or moves the world on its own.

Rules for the states that are reached, with a guard on the events:

* `slots_invariant`: a property of the world and one of every pending program, each preserved by the
  steps of the program itself, of the other runs, and of the world.
* `Discipline.run_safe`: a program that is `Safe`, by recursion over its calls, keeps an invariant
  wherever it is stopped and meets the demand of every call it makes.  `Safe` has the rules of a
  Hoare logic: `safe_bind`, `safe_mono`, `safe_call`.
* `Prog.Everywhere` and `Prog.Avoids` speak about the calls a program may still make, and `Course`
  about those that it has made: `Course.along` is the rule for what it knows from their replies, and
  `slots_along` the one for runs that share a world.
-/

namespace Library

/-! ### Programs -/

/-- Operations, each with the type of its replies. -/
structure Signature where
  Op : Type
  Reply : Op → Type

/-- A program that calls operations and returns an `α`. -/
inductive Prog (S : Signature) (α : Type)
  | ret (a : α)
  | call (op : S.Op) (k : S.Reply op → Prog S α)

namespace Prog

variable {S : Signature} {α β γ : Type}

def bind : Prog S α → (α → Prog S β) → Prog S β
  | ret a, f => f a
  | call op k, f => call op fun r => bind (k r) f

instance : Monad (Prog S) where
  pure := ret
  bind := bind

/-- The call of one operation. -/
def invoke (op : S.Op) : Prog S (S.Reply op) := call op ret

theorem bind_assoc (p : Prog S α) (f : α → Prog S β) (g : β → Prog S γ) :
    (p >>= f >>= g) = (p >>= fun a => f a >>= g) := by
  induction p with
  | ret a => rfl
  | call op k ih => exact congrArg (call op) (funext ih)

/-- The program calls no operation in `target` before one in `barrier`, and what it returns without
having called one in `barrier` satisfies `Q`. -/
def Avoids (target barrier : S.Op → Prop) (Q : α → Prop) : Prog S α → Prop
  | ret a => Q a
  | call op k => ¬ target op ∧ (barrier op ∨ ∀ r, Avoids target barrier Q (k r))

/-- Whether every call that the program may come to satisfies `φ`, together with what follows it. -/
def Everywhere (φ : (op : S.Op) → (S.Reply op → Prog S α) → Prop) : Prog S α → Prop
  | ret _ => True
  | call op k => φ op k ∧ ∀ r, Everywhere φ (k r)

theorem everywhere_call {φ : (op : S.Op) → (S.Reply op → Prog S α) → Prop} {op : S.Op}
    {k : S.Reply op → Prog S α} :
    (call op k).Everywhere φ ↔ φ op k ∧ ∀ r, (k r).Everywhere φ := Iff.rfl

theorem Everywhere.imp {φ ψ : (op : S.Op) → (S.Reply op → Prog S α) → Prop} {p : Prog S α}
    (h : p.Everywhere φ) (himp : ∀ op k, φ op k → ψ op k) : p.Everywhere ψ := by
  induction p with
  | ret a => trivial
  | call op k ih =>
    obtain ⟨hop, hrest⟩ := everywhere_call.mp h
    exact ⟨himp op k hop, fun r => ih r (hrest r)⟩

/-- The calls of one program after another, when for those of the first only the operation
matters. -/
theorem everywhere_bind {φ : (op : S.Op) → (S.Reply op → Prog S β) → Prop} {ψ : S.Op → Prop}
    (hψ : ∀ op k, ψ op → φ op k) {p : Prog S α} {f : α → Prog S β}
    (hp : p.Everywhere fun op _ => ψ op) (hf : ∀ a, (f a).Everywhere φ) :
    (p >>= f).Everywhere φ := by
  induction p with
  | ret a => exact hf a
  | call op k ih =>
    obtain ⟨hop, hrest⟩ := everywhere_call.mp hp
    exact ⟨hψ op _ hop, fun r => ih r (hrest r)⟩

section Avoids

variable {target barrier : S.Op → Prop} {Q : β → Prop}

theorem Avoids.imp {Q' : β → Prop} {p : Prog S β} (h : p.Avoids target barrier Q)
    (hQ : ∀ b, Q b → Q' b) : p.Avoids target barrier Q' := by
  induction p with
  | ret b => exact hQ b h
  | call op k ih => exact ⟨h.1, h.2.imp_right fun hrest r => ih r (hrest r)⟩

theorem Avoids.or {target₁ target₂ : S.Op → Prop} {p : Prog S β} (h₁ : p.Avoids target₁ barrier Q)
    (h₂ : p.Avoids target₂ barrier Q) (h : ∀ op, target op → target₁ op ∨ target₂ op) :
    p.Avoids target barrier Q := by
  induction p with
  | ret b => exact h₁
  | call op k ih =>
    refine ⟨fun htarget => (h op htarget).elim h₁.1 h₂.1, ?_⟩
    rcases h₁.2 with hbarrier | hrest₁
    · exact Or.inl hbarrier
    · exact h₂.2.imp_right fun hrest₂ r => ih r (hrest₁ r) (hrest₂ r)

theorem avoids_bind {p : Prog S α} {f : α → Prog S β}
    (h : p.Avoids target barrier fun a => (f a).Avoids target barrier Q) :
    (p >>= f).Avoids target barrier Q := by
  induction p with
  | ret a => exact h
  | call op k ih => exact ⟨h.1, h.2.imp_right fun hrest r => ih r (hrest r)⟩

/-- A program that never calls an operation in `target`. -/
theorem avoids_of_everywhere {p : Prog S β} (hp : p.Everywhere fun op _ => ¬ target op)
    (hQ : ∀ b, Q b) : p.Avoids target barrier Q := by
  induction p with
  | ret b => exact hQ b
  | call op k ih =>
    obtain ⟨hop, hrest⟩ := everywhere_call.mp hp
    exact ⟨hop, Or.inr fun r => ih r (hrest r)⟩

theorem avoids_of_not {p : Prog S β} (h : ∀ op, ¬ target op) (hQ : ∀ b, Q b) :
    p.Avoids target barrier Q := by
  induction p with
  | ret b => exact hQ b
  | call op k ih => exact ⟨h op, Or.inr ih⟩

end Avoids

end Prog

/-! ### Platforms -/

/-- What the operations do to a world.  A choice stands for all that the caller does not control:
the reply of a server, a storage fault, the time; where it does not fit the world there is no
outcome.  The world also moves on its own. -/
structure Platform extends Signature where
  World : Type
  Choice : Type
  perform : (op : Op) → World → Choice → Option (Reply op × World)
  drift : World → Choice → Option World

variable {P : Platform} {ι Arg α : Type} [DecidableEq ι]

/-- A world with the runs that share it. -/
structure Config (P : Platform) (ι α : Type) where
  world : P.World
  slots : ι → Option (Prog P.toSignature α)

/-- What can happen next: a run is started in a slot, in the place of one that was there, a run is
stopped for good, a run takes a step, or the world moves. -/
inductive Event (P : Platform) (ι Arg : Type)
  | start (i : ι) (arg : Arg)
  | stop (i : ι)
  | step (i : ι) (choice : P.Choice)
  | drift (choice : P.Choice)

def Prog.advance (w : P.World) (c : P.Choice) :
    Option (Prog P.toSignature α) → Except Unit (P.World × Prog P.toSignature α)
  | some (.call op k) =>
    match P.perform op w c with
    | some (r, w') => .ok (w', k r)
    | none => .error ()
  | _ => .error ()

def Config.exec (main : Arg → Prog P.toSignature α) (cfg : Config P ι α) :
    Event P ι Arg → Except Unit (Config P ι α)
  | .start i arg => .ok { cfg with slots := Function.update cfg.slots i (some (main arg)) }
  | .stop i => .ok { cfg with slots := Function.update cfg.slots i none }
  | .step i c =>
    match Prog.advance cfg.world c (cfg.slots i) with
    | .ok (w, p) => .ok ⟨w, Function.update cfg.slots i (some p)⟩
    | .error _ => .error ()
  | .drift c =>
    match P.drift cfg.world c with
    | some w => .ok { cfg with world := w }
    | none => .error ()

def Config.idle (w : P.World) : Config P ι α := ⟨w, fun _ => none⟩

def Idle (init : P.World → Prop) (cfg : Config P ι α) : Prop := ∃ w, init w ∧ cfg = .idle w

variable {main : Arg → Prog P.toSignature α} {cfg cfg' : Config P ι α}

variable {p : Prog P.toSignature α}

theorem advance_eq_ok {w w' : P.World} {c : P.Choice} {slot : Option (Prog P.toSignature α)}
    (h : Prog.advance w c slot = .ok (w', p)) :
    ∃ op k r, slot = some (.call op k) ∧ P.perform op w c = some (r, w') ∧ p = k r := by
  unfold Prog.advance at h
  split at h
  · rename_i op k
    split at h
    · rename_i r w₂ hperform
      rw [Except.ok.injEq, Prod.mk.injEq] at h
      obtain ⟨rfl, rfl⟩ := h
      exact ⟨op, k, r, rfl, hperform, rfl⟩
    · cases h
  · cases h

/-! ### Runs in one slot -/

section Solo

def Config.solo (w : P.World) (slot : Option (Prog P.toSignature α)) : Config P Unit α :=
  ⟨w, fun _ => slot⟩

variable {init : Config P Unit α → Prop} {C : Config P Unit α → Event P Unit Arg → Prop}
  {w w' : P.World} {c : P.Choice} {slot : Option (Prog P.toSignature α)}

theorem update_solo (w : P.World) (slot slot' : Option (Prog P.toSignature α)) :
    (⟨w, Function.update (Config.solo w slot).slots () slot'⟩ : Config P Unit α) =
      .solo w slot' := by
  refine congrArg (Config.mk w) (funext fun i => ?_)
  exact Function.update_self _ _ _

theorem Run.solo_start (h : Run (Config.exec main) init C (.solo w slot)) {arg : Arg}
    (hC : C (.solo w slot) (.start () arg)) :
    Run (Config.exec main) init C (.solo w (some (main arg))) :=
  .next h hC (congrArg Except.ok (update_solo w slot _))

theorem Run.solo_step {op : P.Op} {k : P.Reply op → Prog P.toSignature α} {r : P.Reply op}
    (h : Run (Config.exec main) init C (.solo w (some (.call op k))))
    (hC : C (.solo w (some (.call op k))) (.step () c))
    (outcome : P.perform op w c = some (r, w')) :
    Run (Config.exec main) init C (.solo w' (some (k r))) := by
  have hadvance : Prog.advance w c (some (.call op k)) = .ok (w', k r) := by
    unfold Prog.advance
    dsimp only
    rw [outcome]
  refine .next h hC ?_
  unfold Config.exec
  change (match Prog.advance w c (some (.call op k)) with
    | .ok (w, p) => Except.ok (⟨w, Function.update _ () (some p)⟩ : Config P Unit α)
    | .error _ => .error ()) = _
  rw [hadvance]
  exact congrArg Except.ok (update_solo w' _ _)

theorem Run.solo_drift {v : P.World} (h : Run (Config.exec main) init C (.solo w slot))
    (hC : C (.solo w slot) (.drift c)) (outcome : P.drift w c = some v) :
    Run (Config.exec main) init C (.solo v slot) := by
  refine .next h hC ?_
  unfold Config.exec
  change (match P.drift w c with
    | some w => Except.ok (⟨w, fun _ => slot⟩ : Config P Unit α)
    | none => .error ()) = _
  rw [outcome]
  rfl

end Solo

inductive Happens (main : Arg → Prog P.toSignature α) (cfg : Config P ι α) :
    Event P ι Arg → Config P ι α → Prop
  | start (i : ι) (arg : Arg) :
    Happens main cfg (.start i arg) ⟨cfg.world, Function.update cfg.slots i (some (main arg))⟩
  | stop (i : ι) : Happens main cfg (.stop i) ⟨cfg.world, Function.update cfg.slots i none⟩
  | step {i : ι} {c : P.Choice} {op : P.Op} {k : P.Reply op → Prog P.toSignature α}
      {r : P.Reply op} {w : P.World} (pending : cfg.slots i = some (.call op k))
      (outcome : P.perform op cfg.world c = some (r, w)) :
      Happens main cfg (.step i c) ⟨w, Function.update cfg.slots i (some (k r))⟩
  | drift {c : P.Choice} {w : P.World} (outcome : P.drift cfg.world c = some w) :
      Happens main cfg (.drift c) ⟨w, cfg.slots⟩

theorem exec_happens {ev : Event P ι Arg} (h : cfg.exec main ev = .ok cfg') :
    Happens main cfg ev cfg' := by
  cases ev with
  | start i arg =>
    obtain rfl := Except.ok.inj h
    exact .start i arg
  | stop i =>
    obtain rfl := Except.ok.inj h
    exact .stop i
  | step i c =>
    unfold Config.exec at h
    dsimp only at h
    split at h
    · rename_i w p hadvance
      obtain rfl := Except.ok.inj h
      obtain ⟨op, k, r, hslot, hperform, rfl⟩ := advance_eq_ok hadvance
      exact .step hslot hperform
    · cases h
  | drift c =>
    unfold Config.exec at h
    dsimp only at h
    split at h
    · rename_i w hdrift
      obtain rfl := Except.ok.inj h
      exact .drift hdrift
    · cases h

def Meets (allow : P.Op → P.World → P.Choice → Prop) (cfg : Config P ι α) : Event P ι Arg → Prop
  | .step i c => ∀ op k, cfg.slots i = some (.call op k) → allow op cfg.world c
  | _ => True

/-! ### Courses -/

abbrev Calls (S : Signature) := List (Σ op : S.Op, S.Reply op)

/-- A program has come from `p` to `q` through these calls, each of them made in some world. -/
inductive Course (p : Prog P.toSignature α) : Calls P.toSignature → Prog P.toSignature α → Prop
  | start : Course p [] p
  | call {calls : Calls P.toSignature} {op : P.Op} {k : P.Reply op → Prog P.toSignature α}
      {r : P.Reply op} {w w' : P.World} {c : P.Choice} (before : Course p calls (.call op k))
      (outcome : P.perform op w c = some (r, w')) : Course p (⟨op, r⟩ :: calls) (k r)

/-- Every call that a program may come to satisfies `φ`, given the calls before it. -/
def Along (φ : Calls P.toSignature → P.Op → Prop) :
    Prog P.toSignature α → Calls P.toSignature → Prop
  | .ret _, _ => True
  | .call op k, calls => φ calls op ∧
      ∀ w c r w', P.perform op w c = some (r, w') → Along φ (k r) (⟨op, r⟩ :: calls)

variable {φ : Calls P.toSignature → P.Op → Prop} {calls : Calls P.toSignature}

theorem along_invoke {β : Type} {op : P.Op} {f : P.Reply op → Prog P.toSignature β}
    (hop : φ calls op)
    (h : ∀ w c r w', P.perform op w c = some (r, w') → Along φ (f r) (⟨op, r⟩ :: calls)) :
    Along φ (Prog.invoke op >>= f) calls :=
  ⟨hop, h⟩

theorem along_bind {β : Type} {p : Prog P.toSignature β} {f : β → Prog P.toSignature α}
    (hp : p.Everywhere fun op _ => ∀ calls, φ calls op)
    (hf : ∀ b calls', calls ⊆ calls' → Along φ (f b) calls') : Along φ (p >>= f) calls := by
  induction p generalizing calls with
  | ret b => exact hf b calls (List.Subset.refl calls)
  | call op k ih =>
    obtain ⟨hop, hrest⟩ := Prog.everywhere_call.mp hp
    refine ⟨hop calls, fun w c r w' _ => ?_⟩
    refine ih r (hrest r) fun b calls' hcalls => ?_
    exact hf b calls' fun x hx => hcalls (List.mem_cons_of_mem _ hx)

theorem Course.along {p q : Prog P.toSignature α} (course : Course p calls q) (h : Along φ p []) :
    Along φ q calls := by
  induction course with
  | start => exact h
  | call before outcome ih => exact ih.2 _ _ _ _ outcome

def Prog.follow (calls : Calls P.toSignature) (p : Prog P.toSignature α) :
    List (P.World × P.Choice) → Option (Calls P.toSignature × Prog P.toSignature α)
  | [] => some (calls, p)
  | (w, c) :: rest =>
    match p with
    | .ret _ => none
    | .call op k => (P.perform op w c).bind fun outcome =>
      follow (⟨op, outcome.1⟩ :: calls) (k outcome.1) rest
termination_by structural l => l

theorem Course.follow {p q : Prog P.toSignature α}
    (course : Course p calls q) {l : List (P.World × P.Choice)}
    {calls' : Calls P.toSignature} {q' : Prog P.toSignature α}
    (h : Prog.follow calls q l = some (calls', q')) : Course p calls' q' := by
  induction l generalizing calls q with
  | nil =>
    obtain ⟨rfl, rfl⟩ := Prod.mk.inj (Option.some.inj h)
    exact course
  | cons e rest ih =>
    cases q with
    | ret a => cases h
    | call op k =>
      obtain ⟨outcome, houtcome, hrest⟩ := Option.bind_eq_some_iff.mp h
      exact ih (course.call houtcome) hrest

theorem Course.exists_of_follow
    {test : Calls P.toSignature → Prog P.toSignature α → Bool} (l : List (P.World × P.Choice))
    (h : ((Prog.follow [] p l).any fun e => test e.1 e.2) = true) :
    ∃ calls q, Course p calls q ∧ test calls q = true := by
  obtain ⟨⟨calls, q⟩, hfollow, htest⟩ := (Option.any_eq_true _ _).mp h
  exact ⟨calls, q, Course.start.follow hfollow, htest⟩

/-! ### Invariants of worlds and of pending programs -/

theorem slot_of_update {slots : ι → Option (Prog P.toSignature α)} {i j : ι}
    {q : Option (Prog P.toSignature α)}
    (h : Function.update slots i q j = some p) : (j = i ∧ q = some p) ∨
    (j ≠ i ∧ slots j = some p) := by
  by_cases hji : j = i
  · subst hji
    rw [Function.update_self] at h
    exact Or.inl ⟨rfl, h⟩
  · rw [Function.update_of_ne hji] at h
    exact Or.inr ⟨hji, h⟩

variable {J : P.World → Prop}

variable {K : Prog P.toSignature α → P.World → Prop}

/-- The rule for a property `J` of the world and a property `K` of every pending program: a run that
is started where it may be has `K`, a step keeps `J`, the `K` of the run that takes it and the `K`
of every other run, and so does the world when it moves. -/
theorem slots_invariant_of_start {init : Config P ι α → Prop}
    {C : Config P ι α → Event P ι Arg → Prop}
    (hinit : ∀ cfg, init cfg → J cfg.world ∧ ∀ i p, cfg.slots i = some p → K p cfg.world)
    (hstart : ∀ (cfg : Config P ι α) i arg, C cfg (.start i arg) → J cfg.world →
      K (main arg) cfg.world) (hstep : ∀ (cfg : Config P ι α) i c op k r w, C cfg (.step i c) →
      cfg.slots i = some (.call op k) → J cfg.world → K (.call op k) cfg.world →
      P.perform op cfg.world c = some (r, w) →
      J w ∧ K (k r) w ∧ ∀ j p, j ≠ i → cfg.slots j = some p → K p cfg.world → K p w)
    (hdrift : ∀ (cfg : Config P ι α) c w, C cfg (.drift c) → J cfg.world →
      P.drift cfg.world c = some w → J w ∧ ∀ i p, cfg.slots i = some p → K p cfg.world → K p w)
    {cfg : Config P ι α} (h : Run (Config.exec main) init C cfg) :
    J cfg.world ∧ ∀ i p, cfg.slots i = some p → K p cfg.world := by
  refine Run.invariant (I := fun cfg => J cfg.world ∧ ∀ i p, cfg.slots i = some p → K p cfg.world)
    hinit (fun cfg ev cfg' hC ⟨hJ, hK⟩ hexec => ?_) h
  cases exec_happens hexec with
  | start i arg =>
    refine ⟨hJ, fun j p hp => ?_⟩
    rcases slot_of_update hp with ⟨-, hp⟩ | ⟨-, hp⟩
    · obtain rfl := Option.some.inj hp
      exact hstart cfg i arg hC hJ
    · exact hK j p hp
  | stop i =>
    refine ⟨hJ, fun j p hp => ?_⟩
    rcases slot_of_update hp with ⟨-, hp⟩ | ⟨-, hp⟩
    · cases hp
    · exact hK j p hp
  | @step i c op k r w pending outcome =>
    obtain ⟨hJ', hown, hothers⟩ := hstep cfg i c op k r w hC pending hJ (hK i _ pending) outcome
    refine ⟨hJ', fun j p hp => ?_⟩
    rcases slot_of_update hp with ⟨-, hp⟩ | ⟨hji, hp⟩
    · obtain rfl := Option.some.inj hp
      exact hown
    · exact hothers j p hji hp (hK j p hp)
  | drift outcome =>
    obtain ⟨hJ', hall⟩ := hdrift _ _ _ hC hJ outcome
    exact ⟨hJ', fun i p hp => hall i p hp (hK i p hp)⟩

theorem slots_invariant {init : Config P ι α → Prop} {C : Config P ι α → Event P ι Arg → Prop}
    (hinit : ∀ cfg, init cfg → J cfg.world ∧ ∀ i p, cfg.slots i = some p → K p cfg.world)
    (hstart : ∀ w arg, J w → K (main arg) w)
    (hstep : ∀ (cfg : Config P ι α) i c op k r w, C cfg (.step i c) →
      cfg.slots i = some (.call op k) → J cfg.world → K (.call op k) cfg.world →
      P.perform op cfg.world c = some (r, w) →
      J w ∧ K (k r) w ∧ ∀ j p, j ≠ i → cfg.slots j = some p → K p cfg.world → K p w)
    (hdrift : ∀ (cfg : Config P ι α) c w, C cfg (.drift c) → J cfg.world →
      P.drift cfg.world c = some w → J w ∧ ∀ i p, cfg.slots i = some p → K p cfg.world → K p w)
    {cfg : Config P ι α} (h : Run (Config.exec main) init C cfg) :
    J cfg.world ∧ ∀ i p, cfg.slots i = some p → K p cfg.world :=
  slots_invariant_of_start hinit (fun cfg _ arg _ => hstart cfg.world arg) hstep hdrift h

/-- The rule for runs that act on what their calls have told them: `B` is what the world still
bears out of a call, and `φ` what a program knows when it makes one. -/
theorem slots_along {init : Config P ι α → Prop} {C : Config P ι α → Event P ι Arg → Prop}
    {B : P.World → (Σ op : P.Op, P.Reply op) → Prop}
    (hinit : ∀ cfg, init cfg → J cfg.world ∧ ∀ i, cfg.slots i = none)
    (hmain : ∀ arg, Along φ (main arg) [])
    (hstep : ∀ (cfg : Config P ι α) i c op k r w calls, C cfg (.step i c) →
      cfg.slots i = some (.call op k) → J cfg.world → (∀ x ∈ calls, B cfg.world x) →
      φ calls op → P.perform op cfg.world c = some (r, w) →
      J w ∧ B w ⟨op, r⟩ ∧ ∀ x, B cfg.world x → B w x)
    (hdrift : ∀ (cfg : Config P ι α) c w, C cfg (.drift c) → J cfg.world →
      P.drift cfg.world c = some w → J w ∧ ∀ x, B cfg.world x → B w x)
    {cfg : Config P ι α} (h : Run (Config.exec main) init C cfg) :
    J cfg.world ∧ ∀ i p, cfg.slots i = some p →
      ∃ calls, Along φ p calls ∧ ∀ x ∈ calls, B cfg.world x := by
  refine slots_invariant (J := J)
    (K := fun (p : Prog P.toSignature α) (w : P.World) =>
      ∃ calls, Along φ p calls ∧ ∀ x ∈ calls, B w x) ?_ ?_ ?_ ?_ h
  · intro cfg hcfg
    obtain ⟨hJ, hnone⟩ := hinit cfg hcfg
    refine ⟨hJ, fun i p hp => ?_⟩
    rw [hnone i] at hp
    cases hp
  · intro w arg _
    refine ⟨[], hmain arg, fun x hx => ?_⟩
    cases hx
  · rintro cfg i c op k r w hC hp hJ ⟨calls, halong, hknown⟩ hperform
    obtain ⟨hJ', hnew, hkept⟩ := hstep cfg i c op k r w calls hC hp hJ hknown halong.1 hperform
    refine ⟨hJ', ⟨_, halong.2 _ _ _ _ hperform, fun x hx => ?_⟩, ?_⟩
    · rcases List.mem_cons.mp hx with rfl | hx
      · exact hnew
      · exact hkept x (hknown x hx)
    · rintro j p - - ⟨calls', halong', hknown'⟩
      exact ⟨calls', halong', fun x hx => hkept x (hknown' x hx)⟩
  · intro cfg c w hC hJ hw
    obtain ⟨hJ', hkept⟩ := hdrift cfg c w hC hJ hw
    refine ⟨hJ', ?_⟩
    rintro i p - ⟨calls, halong, hknown⟩
    exact ⟨calls, halong, fun x hx => hkept x (hknown x hx)⟩

/-! ### Safe programs -/

/-- What the runs of a program are held to: an invariant of the world, the demand that each
operation makes on the world it is called in, the choices that count, and how the world may change
between two steps of a run. -/
structure Discipline (P : Platform) where
  inv : P.World → Prop
  demand : P.Op → P.World → Prop
  allow : P.Op → P.World → P.Choice → Prop
  rely : P.World → P.World → Prop
  rely_refl : ∀ w, rely w w
  rely_trans : ∀ {u v w}, rely u v → rely v w → rely u w

namespace Discipline

variable {D : Discipline P} {β : Type}

/-- A program is safe when at each of its calls, after any change that may happen before it, the
demand is met and every allowed outcome keeps the invariant and leaves a safe program. -/
def Safe (D : Discipline P) (Q : α → P.World → Prop) : Prog P.toSignature α → P.World → Prop
  | .ret a, w => Q a w
  | .call op k, w => ∀ w₁, D.rely w w₁ → D.inv w₁ → D.demand op w₁ ∧
      ∀ c r w₂, D.allow op w₁ c → P.perform op w₁ c = some (r, w₂) →
        D.inv w₂ ∧ Safe D Q (k r) w₂

/-- A property that the changes between two steps keep. -/
def Stable (D : Discipline P) (A : P.World → Prop) : Prop :=
  ∀ w w₁, A w → D.rely w w₁ → D.inv w₁ → A w₁

variable {w : P.World}

theorem safe_call {Q : α → P.World → Prop} {A : P.World → Prop} (hA : D.Stable A) {op : P.Op}
    {k : P.Reply op → Prog P.toSignature α} (hw : A w) (h : ∀ w₁, A w₁ → D.inv w₁ → D.demand op w₁ ∧
      ∀ c r w₂, D.allow op w₁ c → P.perform op w₁ c = some (r, w₂) → D.inv w₂ ∧ D.Safe Q (k r) w₂) :
    D.Safe Q (.call op k) w := by
  intro w₁ hrely hinv
  exact h w₁ (hA w w₁ hw hrely hinv) hinv

theorem safe_mono {Q Q' : α → P.World → Prop} (hQ : ∀ a w, Q a w → Q' a w)
    (h : D.Safe Q p w) : D.Safe Q' p w := by
  induction p generalizing w with
  | ret a => exact hQ a w h
  | call op k ih =>
    intro w₁ hrely hinv
    obtain ⟨hdemand, hnext⟩ := h w₁ hrely hinv
    refine ⟨hdemand, fun c r w₂ hallow hperform => ?_⟩
    obtain ⟨hinv₂, hsafe⟩ := hnext c r w₂ hallow hperform
    exact ⟨hinv₂, ih r hsafe⟩

theorem safe_bind {Q : β → P.World → Prop}
    {f : α → Prog P.toSignature β} (h : D.Safe (fun a => D.Safe Q (f a)) p w) :
    D.Safe Q (p >>= f) w := by
  induction p generalizing w with
  | ret a => exact h
  | call op k ih =>
    intro w₁ hrely hinv
    obtain ⟨hdemand, hnext⟩ := h w₁ hrely hinv
    refine ⟨hdemand, fun c r w₂ hallow hperform => ?_⟩
    obtain ⟨hinv₂, hsafe⟩ := hnext c r w₂ hallow hperform
    exact ⟨hinv₂, ih r hsafe⟩

theorem safe_of_everywhere {A : P.World → Prop} (hA : D.Stable A)
    (hp : p.Everywhere fun op _ => ∀ w, A w → D.inv w → D.demand op w ∧
      ∀ c r w', D.allow op w c → P.perform op w c = some (r, w') → D.inv w' ∧ A w')
    (hw : A w) : D.Safe (fun _ => A) p w := by
  induction p generalizing w with
  | ret a => exact hw
  | call op k ih =>
    obtain ⟨hop, hrest⟩ := Prog.everywhere_call.mp hp
    refine safe_call hA hw fun w₁ hw₁ hinv =>
        ⟨(hop w₁ hw₁ hinv).1, fun c r w₂ hallow hperform => ?_⟩
    obtain ⟨hinv₂, hw₂⟩ := (hop w₁ hw₁ hinv).2 c r w₂ hallow hperform
    exact ⟨hinv₂, ih r (hrest r) hw₂⟩

theorem safe_of_rely {w w' : P.World} (hrely : D.rely w w')
    (h : D.Safe (fun _ _ => True) p w) : D.Safe (fun _ _ => True) p w' := by
  cases p with
  | ret a => trivial
  | call op k => exact fun w₁ hrely₁ => h w₁ (D.rely_trans hrely hrely₁)

/-- What is safe under one discipline is so under another that asks for no more where the invariant
of the first one holds, together with something that every operation keeps. -/
theorem safe_transfer {D' : Discipline P} {E : P.World → Prop}
    (hrely : ∀ w w', D'.rely w w' → D.rely w w')
    (hstable : ∀ w w', D.inv w → D.rely w w' → D.inv w')
    (hweaker : ∀ w, D'.inv w → E w) (hinv : ∀ w, D.inv w → E w → D'.inv w)
    (hkeep : ∀ op w c r w', E w → P.perform op w c = some (r, w') → E w')
    (hdemand : ∀ op w, D.demand op w → D'.demand op w)
    (hallow : ∀ op w c, D'.allow op w c → D.allow op w c)
    (hw : D.inv w) (h : D.Safe (fun _ _ => True) p w) : D'.Safe (fun _ _ => True) p w := by
  induction p generalizing w with
  | ret a => trivial
  | call op k ih =>
    intro w₁ hrely₁ hinv₁
    have hw₁ : D.inv w₁ := hstable w w₁ hw (hrely w w₁ hrely₁)
    obtain ⟨hmet, hnext⟩ := h w₁ (hrely w w₁ hrely₁) hw₁
    refine ⟨hdemand op w₁ hmet, fun c r w₂ hcounts hperform => ?_⟩
    obtain ⟨hw₂, hsafe⟩ := hnext c r w₂ (hallow op w₁ c hcounts) hperform
    exact ⟨hinv w₂ hw₂ (hkeep op w₁ c r w₂ (hweaker w₁ hinv₁) hperform), ih r hw₂ hsafe⟩

theorem run_safe_of_guard {init : P.World → Prop} {C : Config P ι α → Event P ι Arg → Prop}
    (hC : ∀ cfg ev, C cfg ev → Meets D.allow cfg ev) (hinit : ∀ w, init w → D.inv w)
    (hmain : ∀ w arg, D.inv w → D.Safe (fun _ _ => True) (main arg) w)
    (hshare : Subsingleton ι ∨ ∀ op w c r w', D.inv w → D.allow op w c →
      P.perform op w c = some (r, w') → D.rely w w')
    (hdrift : ∀ (cfg : Config P ι α) c w', C cfg (.drift c) → D.inv cfg.world →
      P.drift cfg.world c = some w' → D.inv w' ∧ D.rely cfg.world w')
    {cfg : Config P ι α} (h : Run (Config.exec main) (Idle init) C cfg) :
    D.inv cfg.world ∧ ∀ i op k, cfg.slots i = some (.call op k) → D.demand op cfg.world := by
  have hslots := slots_invariant (J := D.inv) (K := D.Safe fun _ _ => True) ?_ hmain ?_ ?_ h
  · refine ⟨hslots.1, fun i op k hp => ?_⟩
    exact (hslots.2 i _ hp cfg.world (D.rely_refl _) hslots.1).1
  · rintro cfg ⟨w, hw, rfl⟩
    refine ⟨hinit w hw, fun i p hp => ?_⟩
    cases hp
  · intro cfg i c op k r w hguard hp hinv hsafe hperform
    have hall := hC _ _ hguard op k hp
    obtain ⟨hinv', hnext⟩ := (hsafe cfg.world (D.rely_refl _) hinv).2 c r w hall hperform
    refine ⟨hinv', hnext, fun j p hj _ hother => ?_⟩
    rcases hshare with hsingle | hshare
    · exact absurd (Subsingleton.elim j i) hj
    · exact safe_of_rely (hshare op _ c r w hinv hall hperform) hother
  · intro cfg c w' hguard hinv hw'
    obtain ⟨hinv', hrely⟩ := hdrift cfg c w' hguard hinv hw'
    exact ⟨hinv', fun i p _ hp => safe_of_rely hrely hp⟩

theorem run_safe {init : P.World → Prop} (hinit : ∀ w, init w → D.inv w)
    (hmain : ∀ w arg, D.inv w → D.Safe (fun _ _ => True) (main arg) w)
    (hshare : Subsingleton ι ∨ ∀ op w c r w', D.inv w → D.allow op w c →
      P.perform op w c = some (r, w') → D.rely w w')
    (hdrift : ∀ w c w', D.inv w → P.drift w c = some w' → D.inv w' ∧ D.rely w w')
    {cfg : Config P ι α}
    (h : Run (Config.exec main) (Idle init) (Meets D.allow) cfg) :
    D.inv cfg.world ∧ ∀ i op k, cfg.slots i = some (.call op k) → D.demand op cfg.world :=
  run_safe_of_guard (fun _ _ h => h) hinit hmain hshare
    (fun cfg c w' _ => hdrift cfg.world c w') h

/-! ### A run that has the world to itself -/

/-- What a run that has the world to itself relies on. -/
def alone (P : Platform) (allow : P.Choice → Prop) : Discipline P where
  inv _ := True
  demand _ _ := True
  allow _ _ := allow
  rely w w' := w = w'
  rely_refl _ := rfl
  rely_trans h h' := h.trans h'

theorem safe_alone_call {allow : P.Choice → Prop} {Q : α → P.World → Prop} {op : P.Op}
    {k : P.Reply op → Prog P.toSignature α}
    (h : ∀ c r w', allow c → P.perform op w c = some (r, w') → (alone P allow).Safe Q (k r) w') :
    (alone P allow).Safe Q (.call op k) w := by
  rintro w₁ rfl -
  exact ⟨trivial, fun c r w₂ hc hperform => ⟨trivial, h c r w₂ hc hperform⟩⟩

end Discipline

def Prog.alone (w : P.World) : Prog P.toSignature α → List P.Choice → Option (α × P.World)
  | .ret a, [] => some (a, w)
  | .call op k, c :: rest => (P.perform op w c).bind fun outcome => alone outcome.2 (k outcome.1) rest
  | _, _ => none

theorem Prog.alone_of_safe {allow : P.Choice → Prop} {Q : α → P.World → Prop}
    {w w' : P.World} {choices : List P.Choice} {a : α}
    (h : (Discipline.alone P allow).Safe Q p w) (hchoices : ∀ c ∈ choices, allow c)
    (hrun : p.alone w choices = some (a, w')) : Q a w' := by
  induction p generalizing w choices with
  | ret b =>
    cases choices with
    | nil =>
      obtain ⟨rfl, rfl⟩ := Prod.mk.inj (Option.some.inj hrun)
      exact h
    | cons c rest => cases hrun
  | call op k ih =>
    cases choices with
    | nil => cases hrun
    | cons c rest =>
      obtain ⟨⟨r, w₁⟩, hperform, hrest⟩ := Option.bind_eq_some_iff.mp hrun
      have hnext := (h w rfl trivial).2 c r w₁ (hchoices c List.mem_cons_self) hperform
      exact ih r hnext.2 (fun c hc => hchoices c (List.mem_cons_of_mem _ hc)) hrest

end Library
