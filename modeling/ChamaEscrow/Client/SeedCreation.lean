import ChamaEscrow.Client.SeedManager

/-!
# A device makes at most one seed

A creation runs inside a lock and only where no marker is stored; the marker is stored by the reads
that find a backup, and by the creation itself after its publish.

* `seed_made_once`: in every interleaving of reads and creations in tabs that share the storage and
  the lock, at most one new seed is published, and none after a read has returned a backup, as long
  as no publish of a new seed fails, and every run that publishes one, or reads a backup where no
  marker is stored, goes on to store the marker while no other run is creating.
* `seed_made_twice`: a publish that throws after a relay stored the event leaves no marker, and the
  next call makes another seed.
-/

namespace ChamaEscrow

open Js Library

namespace Seed

variable (host : SeedHost) {α : Type}

/-! ### Operations that matter -/

namespace SeedOp

def IsMade (op : SeedOp) : Prop := ∃ e, op = publishRaw .created e

def IsMark (op : SeedOp) : Prop := ∃ id, op = saveMarker id

def IsTurn (op : SeedOp) : Prop := op.IsMade ∨ op = queryOnce ∨ ∃ tab, op = cacheAndLocal tab

def IsLook (op : SeedOp) : Prop := op = loadMarker ∨ op = acquire

/-- The wait for the lock. -/
def IsEntry (op : SeedOp) : Prop := op = acquire

/-- What is done inside the lock alone. -/
def IsInner (op : SeedOp) : Prop := op.IsMade ∨ op = release

/-- A call that only the cache and the storage are touched by. -/
def IsLocal : SeedOp → Prop
  | cache _ | fill .. | confirmRestore _ | saveMarker _ | saveLocal _ | loadPending
  | savePending _ => True
  | _ => False

end SeedOp

/-! ### Runs -/

/-- The run stores no marker before it may know of another seed. -/
def Unmarking (p : SeedProg α) : Prop := p.Avoids SeedOp.IsMark SeedOp.IsTurn fun _ => True

/-- The run publishes no new seed before it has looked for the marker. -/
def Unmaking (p : SeedProg α) : Prop := p.Avoids SeedOp.IsMade SeedOp.IsLook fun _ => True

/-- The run is not inside the creation lock. -/
def Outside (p : SeedProg α) : Prop := p.Avoids SeedOp.IsInner SeedOp.IsEntry fun _ => True

/-- The run touches the cache and the storage alone. -/
def Local (p : SeedProg α) : Prop := p.Everywhere fun (op : SeedOp) _ => op.IsLocal

/-- The run stores the marker, whatever it is replied, before it does anything that matters. -/
def MarksNext : SeedProg α → Prop
  | .ret _ => False
  | .call op k => op.IsMark ∨ (¬ op.IsTurn ∧ ∀ r, MarksNext (k r))

def TellsOfMarker : (op : SeedOp) → op.Reply → Prop
  | .loadMarker, r => r.isSome
  | .cacheAndLocal _, r => r.2.isSome
  | .saveMarker _, _ => True
  | _, _ => False

/-- What a call demands of the run that makes it, where `marked` says whether the run knows of a
marker. -/
def Keeps (marked : Prop) : (op : SeedOp) → (op.Reply → SeedProg α) → Prop
  | .saveMarker _, k => ∀ r, Unmaking (k r)
  | .loadMarker, k => ∀ id, Unmaking (k (some id))
  | .acquire, k => Unmaking (k true) ∧ Outside (k false)
  | .cacheAndLocal _, k => ∀ cache, Unmarking (k (cache, none))
  | .queryOnce, k => ∀ events, events.any (isSeedBackup host) = false →
    marked ∨ Unmarking (k events)
  | .publishRaw .created _, k => MarksNext (k true)
  | _, _ => True

/-- A run all of whose calls keep to this. -/
def Careful (marked : Prop) : SeedProg α → Prop
  | .ret _ => True
  | .call op k => Keeps host marked op k ∧ ∀ r, Careful (marked ∨ TellsOfMarker op r) (k r)

section Rules

variable {host} {p : SeedProg α} {marked : Prop}

/-- What enters the lock by the lock alone looks for the marker inside it. -/
theorem Outside.unmaking (h : Outside p) : Unmaking p := by
  induction p with
  | ret a => trivial
  | call op k ih =>
    refine ⟨fun hmade => h.1 (Or.inl hmade), ?_⟩
    rcases h.2 with hentry | hrest
    · exact Or.inl (Or.inr hentry)
    · exact Or.inr fun r => ih r (hrest r)

theorem Local.outside (h : Local p) : Outside p := by
  refine Prog.avoids_of_everywhere (h.imp fun op _ hop => ?_) fun _ => trivial
  rintro (⟨e, rfl⟩ | rfl) <;> exact hop

theorem Local.unmaking_bind {β : Type} (h : Local p) {f : α → SeedProg β}
    (hf : ∀ a, Unmaking (f a)) : Unmaking (p >>= f) := by
  refine Prog.avoids_bind (Prog.avoids_of_everywhere (h.imp fun op _ hop => ?_) hf)
  rintro ⟨e, rfl⟩
  exact hop

theorem Local.careful (h : Local p) : Careful host marked p := by
  induction p generalizing marked with
  | ret a => trivial
  | call op k ih =>
    refine ⟨?_, fun r => ih r (h.2 r)⟩
    cases op with
    | saveMarker id => exact fun r => (Local.outside (h.2 r)).unmaking
    | cache | fill | confirmRestore | saveLocal | loadPending | savePending => trivial
    | _ => exact h.1.elim

/-- A run may touch the cache and the storage first. -/
theorem Local.careful_bind {β : Type} (h : Local p) {f : α → SeedProg β}
    (hf : ∀ a marked, Careful host marked (f a)) (hmaking : ∀ a, Unmaking (f a)) :
    Careful host marked (p >>= f) := by
  induction p generalizing marked with
  | ret a => exact hf a marked
  | call op k ih =>
    refine ⟨?_, fun r => ih r (h.2 r)⟩
    cases op with
    | saveMarker id => exact fun r => Local.unmaking_bind (h.2 r) hmaking
    | cache | fill | confirmRestore | saveLocal | loadPending | savePending => trivial
    | _ => exact h.1.elim

theorem MarksNext.not_unmarking (h : MarksNext p) : ¬ Unmarking p := by
  induction p with
  | ret a => exact h.elim
  | call op k ih =>
    rintro ⟨hnot, hrest⟩
    rcases h with hmark | ⟨hturn, hnext⟩
    · exact hnot hmark
    · have hreply : Nonempty op.Reply := by
        cases op with
        | cache => exact ⟨{}⟩
        | cacheAndLocal => exact ⟨({}, none)⟩
        | _ => exact ⟨default⟩
      obtain ⟨r⟩ := hreply
      exact ih r (hnext r) ((hrest.resolve_left hturn) r)

end Rules

/-! ### `getOrCreateSeed` is careful -/

section Programs

variable {host} {tab : ℕ} {options : SeedReadOptions} {deferred : SeedProg SeedResult}
  {marked : Prop}

theorem local_openProtectedSeed {e : RawEvent} : Local (openProtectedSeed host tab options e) := by
  unfold openProtectedSeed
  split
  · trivial
  · split
    · split
      · trivial
      · split_ifs
        · trivial
        · exact ⟨trivial, fun _ => ⟨trivial, fun _ => ⟨trivial, fun _ => trivial⟩⟩⟩
    · trivial

theorem local_adoptLegacy {words : List String} {e : RawEvent} :
    Local (adoptLegacy tab options words e) := by
  refine ⟨trivial, fun pending => ?_⟩
  simp only [Prog.bind]
  split_ifs
  · trivial
  · exact ⟨trivial, fun _ => ⟨trivial, fun _ => ⟨trivial, fun _ => trivial⟩⟩⟩

theorem local_recordCreated {mnemonic : String} {signed : RawEvent} :
    Local (recordCreated tab mnemonic signed) :=
  ⟨trivial, fun _ => ⟨trivial, fun _ => ⟨trivial, fun _ => ⟨trivial, fun _ => trivial⟩⟩⟩⟩

section Continuations

variable {f : Option SeedResult → SeedProg SeedResult}
  (hcareful : ∀ created marked, Careful host marked (f created))
  (hmaking : ∀ created, Unmaking (f created))

include hcareful hmaking

theorem careful_publishNewSeed : Careful host marked (publishNewSeed tab >>= f) := by
  refine ⟨trivial, fun mnemonic => ⟨trivial, fun content => ?_⟩⟩
  cases content with
  | none => exact hcareful _ _
  | some content =>
    refine ⟨trivial, fun signed => ?_⟩
    cases signed with
    | none => exact hcareful _ _
    | some signed =>
      refine ⟨Or.inl ⟨signed.id, rfl⟩, fun stored => ?_⟩
      cases stored with
      | true => exact local_recordCreated.careful_bind hcareful hmaking
      | false => exact hcareful _ _

omit hcareful hmaking in
theorem unmarking_publishNewSeed (hmark : ∀ created, Unmarking (f created)) :
    Unmarking (publishNewSeed tab >>= f) := by
  refine ⟨by rintro ⟨_, ⟨⟩⟩, Or.inr fun mnemonic => ⟨by rintro ⟨_, ⟨⟩⟩, Or.inr fun content => ?_⟩⟩
  cases content with
  | none => exact hmark _
  | some content =>
    refine ⟨by rintro ⟨_, ⟨⟩⟩, Or.inr fun signed => ?_⟩
    cases signed with
    | none => exact hmark _
    | some signed => exact ⟨by rintro ⟨_, ⟨⟩⟩, Or.inl (Or.inl ⟨signed, rfl⟩)⟩

theorem careful_createSeed (hmark : ∀ created, Unmarking (f created)) :
    Careful host marked (createSeed host tab options >>= f) := by
  refine ⟨trivial, fun cache => ?_⟩
  simp only [Prog.bind]
  split_ifs
  · exact hcareful _ _
  · refine ⟨fun id => hmaking none, fun marker => ?_⟩
    cases marker with
    | some id => exact hcareful _ _
    | none =>
      refine ⟨fun events hnone => Or.inr ?_, fun events => ?_⟩
      · simp only [Prog.bind]
        rw [if_neg (by simp [hnone])]
        refine ⟨by rintro ⟨_, ⟨⟩⟩, Or.inr fun quorum => ?_⟩
        simp only [Prog.bind]
        split_ifs
        · exact hmark _
        · exact unmarking_publishNewSeed hmark
      · simp only [Prog.bind]
        split_ifs
        · exact hcareful _ _
        · refine ⟨trivial, fun quorum => ?_⟩
          simp only [Prog.bind]
          split_ifs
          · exact hcareful _ _
          · exact careful_publishNewSeed hcareful hmaking

omit hcareful in
theorem unmaking_createSeed : Unmaking (createSeed host tab options >>= f) := by
  refine ⟨by rintro ⟨_, ⟨⟩⟩, Or.inr fun cache => ?_⟩
  simp only [Prog.bind]
  split_ifs
  · exact hmaking _
  · exact ⟨by rintro ⟨_, ⟨⟩⟩, Or.inl (Or.inl rfl)⟩

omit hcareful hmaking in
theorem unmarking_createSeed (hmark : ∀ created, Unmarking (f created)) :
    Unmarking (createSeed host tab options >>= f) := by
  refine ⟨by rintro ⟨_, ⟨⟩⟩, Or.inr fun cache => ?_⟩
  simp only [Prog.bind]
  split_ifs
  · exact hmark _
  · refine ⟨by rintro ⟨_, ⟨⟩⟩, Or.inr fun marker => ?_⟩
    cases marker with
    | some id => exact hmark _
    | none => exact ⟨by rintro ⟨_, ⟨⟩⟩, Or.inl (Or.inr (Or.inl rfl))⟩

end Continuations

/-- What a run is to be that may follow a creation: whatever it knows it is careful, it is not
inside the lock, and it stores no marker before it may know of another seed. -/
structure Starts (host : SeedHost) (p : SeedProg SeedResult) : Prop where
  careful : ∀ marked, Careful host marked p
  outside : Outside p
  unmarking : Unmarking p

theorem starts_ret (r : SeedResult) : Starts host (.ret r) := ⟨fun _ => trivial, trivial, trivial⟩

theorem withSeedCreationLock_bind {p : SeedProg (Option SeedResult)}
    {f : Option SeedResult → SeedProg SeedResult} :
    (withSeedCreationLock p >>= f) = .call .acquire fun acquired =>
      match acquired with
      | true => p >>= fun created => .call .release fun _ => f created
      | false => f (some (.threw .relaysUnready)) := by
  refine congrArg (Prog.call (S := seedSignature) SeedOp.acquire) (funext fun acquired => ?_)
  cases acquired with
  | true => exact Prog.bind_assoc p (fun created => .call .release fun _ => .ret created) f
  | false => rfl

theorem starts_orDeferred (h : Starts host deferred) (created : Option SeedResult) :
    Starts host (orDeferred deferred created) := by
  cases created with
  | some created => exact starts_ret created
  | none => exact h

theorem starts_locked (h : Starts host deferred) :
    Starts host (withSeedCreationLock (createSeed host tab options) >>= orDeferred deferred) := by
  have hafter := starts_orDeferred h
  have hcareful : ∀ created marked, Careful host marked
      (.call .release fun _ => orDeferred deferred created) :=
    fun created marked => ⟨trivial, fun _ => (hafter created).careful _⟩
  have hmaking : ∀ created, Unmaking (.call .release fun _ => orDeferred deferred created) :=
    fun created => ⟨by rintro ⟨_, ⟨⟩⟩, Or.inr fun _ => (hafter created).outside.unmaking⟩
  have hmark : ∀ created, Unmarking (.call .release fun _ => orDeferred deferred created) :=
    fun created => ⟨by rintro ⟨_, ⟨⟩⟩, Or.inr fun _ => (hafter created).unmarking⟩
  rw [withSeedCreationLock_bind]
  refine ⟨fun marked => ⟨⟨unmaking_createSeed hmaking, (hafter _).outside⟩, fun acquired => ?_⟩,
    ⟨?_, Or.inl rfl⟩, ⟨by rintro ⟨_, ⟨⟩⟩, Or.inr fun acquired => ?_⟩⟩
  · cases acquired with
    | true => exact careful_createSeed hcareful hmaking hmark
    | false => exact (hafter _).careful _
  · rintro (⟨_, ⟨⟩⟩ | ⟨⟨⟩⟩)
  · cases acquired with
    | true => exact unmarking_createSeed hmark
    | false => exact (hafter _).unmarking

theorem starts_createUnlessMarked (h : Starts host deferred) :
    Starts host (createUnlessMarked host tab options deferred) := by
  have hquorum : ∀ quorum : Bool, Starts host
      (if !quorum then .ret (.threw .relaysUnready)
        else if options.existingOnly then .ret (.threw .missing)
        else withSeedCreationLock (createSeed host tab options) >>= orDeferred deferred) := by
    intro quorum
    split_ifs
    · exact starts_ret _
    · exact starts_ret _
    · exact starts_locked h
  refine ⟨fun marked => ⟨fun id => trivial, fun marker => ?_⟩, ⟨?_, Or.inr fun marker => ?_⟩,
    ⟨by rintro ⟨_, ⟨⟩⟩, Or.inr fun marker => ?_⟩⟩
  · cases marker with
    | some id => trivial
    | none => exact ⟨trivial, fun quorum => (hquorum quorum).careful _⟩
  · rintro (⟨_, ⟨⟩⟩ | ⟨⟨⟩⟩)
  · cases marker with
    | some id => trivial
    | none => exact ⟨by rintro (⟨_, ⟨⟩⟩ | ⟨⟨⟩⟩), Or.inr fun quorum => (hquorum quorum).outside⟩
  · cases marker with
    | some id => trivial
    | none => exact ⟨by rintro ⟨_, ⟨⟩⟩, Or.inr fun quorum => (hquorum quorum).unmarking⟩

theorem careful_openBackups (h : Starts host deferred) (existing : List RawEvent) :
    Careful host marked (openBackups host tab options deferred existing) ∧
      Outside (openBackups host tab options deferred existing) := by
  have hlocal {p : SeedProg SeedResult} (hp : Local p) : Careful host marked p ∧ Outside p :=
    ⟨hp.careful, hp.outside⟩
  unfold openBackups
  split
  · exact hlocal ⟨trivial, fun _ => ⟨trivial, fun _ => local_openProtectedSeed⟩⟩
  · exact hlocal ⟨trivial, fun _ => ⟨trivial, fun _ => trivial⟩⟩
  · exact hlocal local_adoptLegacy
  · exact hlocal trivial
  · exact hlocal trivial
  · exact hlocal ⟨trivial, fun _ => trivial⟩
  · exact ⟨(starts_createUnlessMarked h).careful _, (starts_createUnlessMarked h).outside⟩

section Reads

variable {f : List RawEvent → SeedProg SeedResult}

theorem careful_queryUntilFound (hmarked : marked)
    (hf : ∀ existing marked, Careful host marked (f existing)) (tries : ℕ) :
    Careful host marked (queryUntilFound host tries >>= f) := by
  induction tries generalizing marked with
  | zero => exact hf [] marked
  | succ tries ih =>
    refine ⟨fun events _ => Or.inl hmarked, fun events => ?_⟩
    simp only [Prog.bind, pure]
    split_ifs
    · exact ih (Or.inl hmarked)
    · exact hf _ _

theorem outside_queryUntilFound (hf : ∀ existing, Outside (f existing)) (tries : ℕ) :
    Outside (queryUntilFound host tries >>= f) := by
  induction tries with
  | zero => exact hf []
  | succ tries ih =>
    refine ⟨by rintro (⟨_, ⟨⟩⟩ | ⟨⟨⟩⟩), Or.inr fun events => ?_⟩
    simp only [Prog.bind, pure]
    split_ifs
    · exact ih
    · exact hf _

end Reads

theorem careful_afterMarker {f : List RawEvent → SeedProg SeedResult} (marker : Option String)
    (hf : ∀ existing marked, Careful host marked (f existing)) :
    Careful host (marked ∨ TellsOfMarker .loadMarker marker)
      ((if marker.isSome then queryUntilFound host 3 else .ret []) >>= f) := by
  cases marker with
  | some id => exact careful_queryUntilFound (Or.inr rfl) hf 3
  | none => exact hf [] _

theorem outside_afterMarker {f : List RawEvent → SeedProg SeedResult} (marker : Option String)
    (hf : ∀ existing, Outside (f existing)) :
    Outside ((if marker.isSome then queryUntilFound host 3 else .ret []) >>= f) := by
  cases marker with
  | some id => exact outside_queryUntilFound hf 3
  | none => exact hf []

theorem careful_readRelays (h : Starts host deferred) {localEvent : Option RawEvent}
    (hlocal : localEvent.isSome → marked) :
    Careful host marked (readRelays host tab options deferred localEvent) := by
  have hopen : ∀ existing marked, Careful host marked
      (openBackups host tab options deferred (withLocal host localEvent existing)) :=
    fun existing marked => (careful_openBackups h _).1
  have hout : ∀ existing, Outside
      (openBackups host tab options deferred (withLocal host localEvent existing)) :=
    fun existing => (@careful_openBackups host tab options deferred True h _).2
  refine ⟨fun events hnone => ?_, fun events => ?_⟩
  · cases localEvent with
    | some e => exact Or.inl (hlocal rfl)
    | none =>
      right
      have hempty : events.filter (isSeedBackup host) = [] :=
        List.filter_eq_nil_iff.mpr (by simpa using hnone)
      simp only [Prog.bind, pure]
      rw [if_pos hempty]
      refine ⟨by rintro ⟨_, ⟨⟩⟩, Or.inr fun marker => ?_⟩
      cases marker with
      | some id => exact ⟨by rintro ⟨_, ⟨⟩⟩, Or.inl (Or.inr (Or.inl rfl))⟩
      | none => exact (starts_createUnlessMarked h).unmarking
  · simp only [Prog.bind, pure]
    split_ifs
    · refine ⟨fun id => (outside_afterMarker (some id) hout).unmaking, fun marker => ?_⟩
      exact careful_afterMarker marker hopen
    · exact hopen _ _

theorem outside_readRelays (h : Starts host deferred) (localEvent : Option RawEvent) :
    Outside (readRelays host tab options deferred localEvent) := by
  have hout : ∀ existing, Outside
      (openBackups host tab options deferred (withLocal host localEvent existing)) :=
    fun existing => (@careful_openBackups host tab options deferred True h _).2
  refine ⟨by rintro (⟨_, ⟨⟩⟩ | ⟨⟨⟩⟩), Or.inr fun events => ?_⟩
  simp only [Prog.bind, pure]
  split_ifs
  · exact ⟨by rintro (⟨_, ⟨⟩⟩ | ⟨⟨⟩⟩), Or.inr fun marker => outside_afterMarker marker hout⟩
  · exact hout _

theorem careful_openLocal (h : Starts host deferred) {localEvent : RawEvent} (hmarked : marked) :
    Careful host marked (openLocal host tab options deferred localEvent) ∧
      Outside (openLocal host tab options deferred localEvent) := by
  have hlocal {p : SeedProg SeedResult} (hp : Local p) : Careful host marked p ∧ Outside p :=
    ⟨hp.careful, hp.outside⟩
  have hread : Careful host marked (readRelays host tab options deferred (some localEvent)) ∧
      Outside (readRelays host tab options deferred (some localEvent)) :=
    ⟨careful_readRelays h fun _ => hmarked, outside_readRelays h _⟩
  unfold openLocal
  split_ifs
  · exact hlocal local_openProtectedSeed
  · exact hlocal trivial
  · exact hlocal trivial
  · exact hread
  · split
    · exact hlocal trivial
    · exact hlocal ⟨trivial, fun _ => trivial⟩
    · exact hread

theorem local_openCached {cache : SeedCache} {words : List String} :
    Local (openCached tab options cache words) := by
  unfold openCached
  split_ifs
  · trivial
  · exact ⟨trivial, fun _ => trivial⟩
  · trivial

theorem unmarking_openSession {cache : SeedCache} :
    Unmarking (openSession host tab options deferred cache none) := by
  unfold openSession
  split
  · unfold openCached
    split_ifs
    · trivial
    · exact ⟨by rintro ⟨_, ⟨⟩⟩, Or.inr fun _ => trivial⟩
    · trivial
  · contradiction
  · exact ⟨by rintro ⟨_, ⟨⟩⟩, Or.inl (Or.inr (Or.inl rfl))⟩

theorem careful_openSession (h : Starts host deferred) {cache : SeedCache}
    {localEvent : Option RawEvent} (hlocal : localEvent.isSome → marked) :
    Careful host marked (openSession host tab options deferred cache localEvent) ∧
      Outside (openSession host tab options deferred cache localEvent) := by
  unfold openSession
  split
  · exact ⟨local_openCached.careful, local_openCached.outside⟩
  · split_ifs
    · exact ⟨careful_readRelays h hlocal, outside_readRelays h _⟩
    · exact careful_openLocal h (hlocal rfl)
  · exact ⟨careful_readRelays h hlocal, outside_readRelays h _⟩

theorem starts_getOrCreatePass (h : Starts host deferred) :
    Starts host (getOrCreatePass host tab options deferred) :=
  ⟨fun _ => ⟨fun _ => unmarking_openSession, fun _ => (careful_openSession h Or.inr).1⟩,
    ⟨by rintro (⟨_, ⟨⟩⟩ | ⟨⟨⟩⟩),
      Or.inr fun _ => (@careful_openSession host tab options deferred True h _ _ fun _ =>
        trivial).2⟩,
    ⟨by rintro ⟨_, ⟨⟩⟩, Or.inl (Or.inr (Or.inr ⟨tab, rfl⟩))⟩⟩

theorem starts_getOrCreateSeed : Starts host (getOrCreateSeed host tab options) := by
  unfold getOrCreateSeed
  split_ifs
  · exact starts_getOrCreatePass (starts_ret _)
  · exact starts_getOrCreatePass (starts_getOrCreatePass (starts_ret _))

/-- What `getExistingSeed` does with the cache it has read. -/
def cachedSeed (host : SeedHost) (tab : ℕ) (allowUserAction : Bool) (cache : SeedCache) :
    SeedProg SeedResult :=
  match cache.words host with
  | some words => .ret (.words words)
  | none =>
    if host.requiresUserAction && !allowUserAction then .ret (.threw .locked)
    else getOrCreateSeed host tab { existingOnly := true }

theorem starts_run (request : SeedRequest) : Starts host (request.run host) := by
  cases request with
  | getOrCreate tab options => exact starts_getOrCreateSeed
  | getExisting tab allowUserAction =>
    have hrest : ∀ cache : SeedCache, Starts host (cachedSeed host tab allowUserAction cache) := by
      intro cache
      unfold cachedSeed
      split
      · exact starts_ret _
      · split_ifs
        · exact starts_ret _
        · exact starts_getOrCreateSeed
    exact ⟨fun marked => ⟨trivial, fun cache => (hrest cache).careful _⟩,
      ⟨by rintro (⟨_, ⟨⟩⟩ | ⟨⟨⟩⟩), Or.inr fun cache => (hrest cache).outside⟩,
      ⟨by rintro ⟨_, ⟨⟩⟩, Or.inr fun cache => (hrest cache).unmarking⟩⟩

end Programs

/-! ### What a step leaves -/

def SameRecord (w w' : SeedWorld) : Prop :=
  w'.marker = w.marker ∧ w'.seen = w.seen ∧ w'.made = w.made ∧ w'.late = w.late

def NoEvidence (w : SeedWorld) : Prop := w.marker = none ∧ w.seen = false ∧ w.made = []

section Steps

variable {host} {op : SeedOp} {w w' : SeedWorld} {c : SeedChoice} {r : op.Reply}

theorem sameRecord_perform (hmark : ¬ op.IsMark) (hquery : op ≠ .queryOnce) (hmade : ¬ op.IsMade)
    (h : performSeed host op w c = some (r, w')) : SameRecord w w' := by
  cases op with
  | saveMarker id => exact absurd ⟨id, rfl⟩ hmark
  | queryOnce => exact absurd rfl hquery
  | publishRaw why e =>
    cases why with
    | created => exact absurd ⟨e, rfl⟩ hmade
    | republished | resent =>
      cases c with
      | stores | throws =>
        obtain ⟨-, rfl⟩ := Prod.mk.inj (Option.some.inj h)
        exact ⟨rfl, rfl, rfl, rfl⟩
      | _ => cases h
  | encrypt mnemonic =>
    cases c with
    | ciphers content =>
      unfold performSeed at h
      dsimp only at h
      split at h
      · split_ifs at h
        obtain ⟨-, rfl⟩ := Prod.mk.inj (Option.some.inj h)
        exact ⟨rfl, rfl, rfl, rfl⟩
      · cases h
    | throws =>
      obtain ⟨-, rfl⟩ := Prod.mk.inj (Option.some.inj h)
      exact ⟨rfl, rfl, rfl, rfl⟩
    | _ => cases h
  | sign content =>
    cases c with
    | signs e =>
      unfold performSeed at h
      dsimp only at h
      split_ifs at h
      obtain ⟨-, rfl⟩ := Prod.mk.inj (Option.some.inj h)
      exact ⟨rfl, rfl, rfl, rfl⟩
    | throws =>
      obtain ⟨-, rfl⟩ := Prod.mk.inj (Option.some.inj h)
      exact ⟨rfl, rfl, rfl, rfl⟩
    | _ => cases h
  | hasQuorum | acquire =>
    cases c with
    | answers =>
      obtain ⟨-, rfl⟩ := Prod.mk.inj (Option.some.inj h)
      exact ⟨rfl, rfl, rfl, rfl⟩
    | _ => cases h
  | generate =>
    cases c with
    | mints =>
      obtain ⟨-, rfl⟩ := Prod.mk.inj (Option.some.inj h)
      exact ⟨rfl, rfl, rfl, rfl⟩
    | _ => cases h
  | _ =>
    cases c with
    | quiet =>
      obtain ⟨-, rfl⟩ := Prod.mk.inj (Option.some.inj h)
      exact ⟨rfl, rfl, rfl, rfl⟩
    | _ => cases h

theorem saveMarker_perform {id : String} {r : Unit}
    (h : performSeed host (.saveMarker id) w c = some (r, w')) :
    w'.marker = some id ∧ w'.seen = w.seen ∧ w'.made = w.made ∧ w'.late = w.late := by
  cases c with
  | quiet =>
    obtain ⟨-, rfl⟩ := Prod.mk.inj (Option.some.inj h)
    exact ⟨rfl, rfl, rfl, rfl⟩
  | _ => cases h

theorem queryOnce_perform {events : List RawEvent}
    (h : performSeed host .queryOnce w c = some (events, w')) :
    w'.marker = w.marker ∧ w'.seen = (w.seen || events.any (isSeedBackup host)) ∧
      w'.made = w.made ∧ w'.late = w.late := by
  cases c with
  | reads positions =>
    obtain ⟨rfl, rfl⟩ := Prod.mk.inj (Option.some.inj h)
    exact ⟨rfl, rfl, rfl, rfl⟩
  | _ => cases h

theorem publishNew_perform {e : RawEvent} {stored : Bool}
    (h : performSeed host (.publishRaw .created e) w c = some (stored, w')) :
    w'.marker = w.marker ∧ w'.seen = w.seen ∧ w'.made = e :: w.made ∧
      w'.late = (w.late || w.seen || !w.made.isEmpty) ∧
      (stored = false → ∃ kept, c = .throws kept) := by
  cases c with
  | stores =>
    obtain ⟨rfl, rfl⟩ := Prod.mk.inj (Option.some.inj h)
    exact ⟨rfl, rfl, rfl, rfl, fun h => Bool.noConfusion h⟩
  | throws kept =>
    obtain ⟨rfl, rfl⟩ := Prod.mk.inj (Option.some.inj h)
    exact ⟨rfl, rfl, rfl, rfl, fun _ => ⟨kept, rfl⟩⟩
  | _ => cases h

theorem marker_perform (h : performSeed host op w c = some (r, w')) (hmarker : w.marker ≠ none) :
    w'.marker ≠ none := by
  by_cases hmark : op.IsMark
  · obtain ⟨id, rfl⟩ := hmark
    rw [(saveMarker_perform h).1]
    exact Option.some_ne_none id
  · have hsame : w'.marker = w.marker := by
      by_cases hquery : op = .queryOnce
      · subst hquery
        exact (queryOnce_perform h).1
      · by_cases hmade : op.IsMade
        · obtain ⟨e, rfl⟩ := hmade
          exact (publishNew_perform h).1
        · exact (sameRecord_perform hmark hquery hmade h).1
    rw [hsame]
    exact hmarker

theorem TellsOfMarker.marker (h : performSeed host op w c = some (r, w'))
    (htells : TellsOfMarker op r) : w'.marker ≠ none := by
  cases op with
  | saveMarker id =>
    rw [(saveMarker_perform h).1]
    exact Option.some_ne_none id
  | loadMarker =>
    cases c with
    | quiet =>
      obtain ⟨rfl, rfl⟩ := Prod.mk.inj (Option.some.inj h)
      exact Option.isSome_iff_ne_none.mp htells
    | _ => cases h
  | cacheAndLocal tab =>
    cases c with
    | quiet =>
      obtain ⟨rfl, rfl⟩ := Prod.mk.inj (Option.some.inj h)
      obtain ⟨e, he⟩ := Option.isSome_iff_exists.mp htells
      unfold loadLocalSeedEvent at he
      rw [Option.filter_eq_some_iff] at he
      have hbound := (Bool.and_eq_true_iff.mp (Bool.and_eq_true_iff.mp he.2).1).1
      rw [of_decide_eq_true hbound]
      exact Option.some_ne_none _
    | _ => cases h
  | _ => exact htells.elim

theorem sameRecord_drift {w w' : SeedWorld} {c : SeedChoice} (h : driftSeed host w c = some w') :
    SameRecord w w' := by
  cases c with
  | appears e =>
    unfold driftSeed at h
    dsimp only at h
    split_ifs at h
    obtain rfl := Option.some.inj h
    exact ⟨rfl, rfl, rfl, rfl⟩
  | clears tab cache =>
    unfold driftSeed at h
    dsimp only at h
    split_ifs at h
    obtain rfl := Option.some.inj h
    exact ⟨rfl, rfl, rfl, rfl⟩
  | _ => cases h

end Steps

/-! ### Runs -/

section Runs

variable {host} {ι : Type}

/-- The law of the creation lock: it is granted to a run while no other is inside it. -/
def LockIsSingle (cfg : Config (seedPlatform host) ι SeedResult) :
    Event (seedPlatform host) ι SeedRequest → Prop
  | .step i c => ∀ k, cfg.slots i = some (.call .acquire k) → c = .answers true →
    ∀ j p, j ≠ i → cfg.slots j = some p → Outside p
  | _ => True

/-- The events that count: no publish of a new seed throws; a run that reads a backup where no
marker is stored goes on to store it; and such a run, like one that has published a new seed, is not
cut off before that, nor is it there while another run is inside the lock. -/
def RecordsSeeds (cfg : Config (seedPlatform host) ι SeedResult) :
    Event (seedPlatform host) ι SeedRequest → Prop
  | .start i _ | .stop i => cfg.world.marker = none →
    ∀ p, cfg.slots i = some p → ¬ MarksNext p
  | .step i c =>
    (∀ k, cfg.slots i = some (.call .acquire k) → c = .answers true → cfg.world.marker = none →
      ∀ j p, j ≠ i → cfg.slots j = some p → ¬ MarksNext p) ∧
    (∀ e k kept, cfg.slots i = some (.call (.publishRaw .created e) k) → c ≠ .throws kept) ∧
    (∀ k events w, cfg.slots i = some (.call .queryOnce k) →
      performSeed host .queryOnce cfg.world c = some (events, w) →
      events.any (isSeedBackup host) = true → cfg.world.marker = none →
      MarksNext (k events) ∧ ∀ j p, j ≠ i → cfg.slots j = some p → Outside p)
  | .drift _ => True

structure RunOk (host : SeedHost) (w : SeedWorld) (p : SeedProg SeedResult) : Prop where
  careful : ∃ marked : Prop, (marked → w.marker ≠ none) ∧ Careful host marked p
  marks : Unmarking p ∨ w.marker ≠ none ∨ MarksNext p
  makes : Unmaking p ∨ NoEvidence w ∨ MarksNext p

theorem runOk_run (w : SeedWorld) (request : SeedRequest) : RunOk host w (request.run host) where
  careful := ⟨False, False.elim, (starts_run request).careful False⟩
  marks := Or.inl (starts_run request).unmarking
  makes := Or.inl (starts_run request).outside.unmaking

/-- A run is known the same of after another one has changed the world, unless that told of a seed
while this one was inside the lock. -/
theorem RunOk.other {w w' : SeedWorld} {p : SeedProg SeedResult} (h : RunOk host w p)
    (hmarker : w.marker ≠ none → w'.marker ≠ none)
    (hchange : SameRecord w w' ∨ Outside p ∨ w.marker ≠ none) : RunOk host w' p := by
  obtain ⟨marked, hmarked, hcareful⟩ := h.careful
  refine ⟨⟨marked, fun hm => hmarker (hmarked hm), hcareful⟩,
    h.marks.imp_right (Or.imp_left hmarker), ?_⟩
  rcases h.makes with hunmaking | hnone | hmarks
  · exact Or.inl hunmaking
  · rcases hchange with ⟨hmark, hseen, hmade, -⟩ | houtside | hsome
    · right; left
      exact ⟨hmark.trans hnone.1, hseen.trans hnone.2.1, hmade.trans hnone.2.2⟩
    · exact Or.inl houtside.unmaking
    · exact absurd hnone.1 hsome
  · exact Or.inr (Or.inr hmarks)

/-- One of two runs is outside the lock, and if the other is inside, it has no marker to store. -/
def Apart (w : SeedWorld) (p q : SeedProg SeedResult) : Prop :=
  Outside p ∨ (Outside q ∧ (w.marker ≠ none ∨ ¬ MarksNext q))

/-- What holds in every run that counts. -/
structure SeedInv (cfg : Config (seedPlatform host) ι SeedResult) : Prop where
  runs : ∀ i p, cfg.slots i = some p → RunOk host cfg.world p
  apart : ∀ i j p q, i ≠ j → cfg.slots i = some p → cfg.slots j = some q → Apart cfg.world p q
  evidence : cfg.world.seen = true ∨ cfg.world.made ≠ [] →
    cfg.world.marker ≠ none ∨ ∃ i p, cfg.slots i = some p ∧ MarksNext p
  once : cfg.world.late = false ∧ cfg.world.made.length ≤ 1

theorem SeedInv.replace [DecidableEq ι] {cfg : Config (seedPlatform host) ι SeedResult}
    (h : SeedInv cfg) {i : ι}
    {q : Option (SeedProg SeedResult)} {w' : SeedWorld}
    (hmarker : cfg.world.marker ≠ none → w'.marker ≠ none)
    (hrun : ∀ p, q = some p → RunOk host w' p)
    (hothers : ∀ j p, j ≠ i → cfg.slots j = some p →
      SameRecord cfg.world w' ∨ Outside p ∨ cfg.world.marker ≠ none)
    (hapart : ∀ p, q = some p → ∀ j r, j ≠ i → cfg.slots j = some r →
      Apart w' p r ∧ Apart w' r p)
    (hevidence : w'.seen = true ∨ w'.made ≠ [] → w'.marker ≠ none ∨
      (∃ p, q = some p ∧ MarksNext p) ∨ ∃ j p, j ≠ i ∧ cfg.slots j = some p ∧ MarksNext p)
    (honce : w'.late = false ∧ w'.made.length ≤ 1) :
    SeedInv (⟨w', Function.update cfg.slots i q⟩ : Config (seedPlatform host) ι SeedResult) := by
  refine ⟨fun j p hp => ?_, fun j k p r hjk hp hr => ?_, fun hseen => ?_, honce⟩
  · rcases slot_of_update hp with ⟨-, hp⟩ | ⟨hji, hp⟩
    · exact hrun p hp
    · exact (h.runs j p hp).other hmarker (hothers j p hji hp)
  · rcases slot_of_update hp with ⟨hji, hq⟩ | ⟨hji, hpj⟩
    · rcases slot_of_update hr with ⟨hki, -⟩ | ⟨hki, hrk⟩
      · exact absurd (hji.trans hki.symm) hjk
      · exact (hapart p hq k r hki hrk).1
    · rcases slot_of_update hr with ⟨-, hq⟩ | ⟨hki, hrk⟩
      · exact (hapart r hq j p hji hpj).2
      · exact (h.apart j k p r hjk hpj hrk).imp_right (And.imp_right (Or.imp_left hmarker))
  · rcases hevidence hseen with hsome | ⟨p, hp, hmarks⟩ | ⟨j, p, hji, hp, hmarks⟩
    · exact Or.inl hsome
    · exact Or.inr ⟨i, p, (Function.update_self _ _ _).trans hp, hmarks⟩
    · exact Or.inr ⟨j, p, (Function.update_of_ne hji _ _).trans hp, hmarks⟩

section Step

variable {cfg : Config (seedPlatform host) ι SeedResult} {i : ι} {op : SeedOp}
  {k : op.Reply → SeedProg SeedResult} {c : SeedChoice} {r : op.Reply} {w' : SeedWorld}
  (h : SeedInv cfg) (hp : cfg.slots i = some (.call op k))
  (hperform : performSeed host op cfg.world c = some (r, w'))
  (hlock : LockIsSingle cfg (.step i c : Event (seedPlatform host) ι SeedRequest))
  (hcounts : RecordsSeeds cfg (.step i c : Event (seedPlatform host) ι SeedRequest))

include h hp hperform hcounts

theorem marks_step : Unmarking (k r) ∨ w'.marker ≠ none ∨ (MarksNext (k r) ∧
    (MarksNext (.call op k : SeedProg SeedResult) ∨
      ∀ j q, j ≠ i → cfg.slots j = some q → Outside q)) := by
  have hrun := h.runs i _ hp
  obtain ⟨marked, hmarked, hcareful⟩ := hrun.careful
  have hstays := marker_perform hperform
  rcases hrun.marks with hunmarking | hmarker | hnext
  · rcases hunmarking.2 with hturn | hrest
    · rcases hturn with ⟨e, rfl⟩ | rfl | ⟨tab, rfl⟩
      · -- A new seed is published, and its marker is stored next.
        have hstored : r = true := by
          by_contra hnot
          obtain ⟨kept, rfl⟩ :=
            (publishNew_perform hperform).2.2.2.2 (Bool.eq_false_of_not_eq_true hnot)
          exact hcounts.2.1 e k kept hp rfl
        subst hstored
        refine Or.inr (Or.inr ⟨hcareful.1, Or.inr fun j q hji hq => ?_⟩)
        rcases h.apart i j _ q (Ne.symm hji) hp hq with houtside | ⟨houtside, -⟩
        · exact absurd (Or.inl ⟨e, rfl⟩) houtside.1
        · exact houtside
      · cases hbackups : List.any r (isSeedBackup host) with
        | false =>
          rcases hcareful.1 r hbackups with hm | hunmarking
          · exact Or.inr (Or.inl (hstays (hmarked hm)))
          · exact Or.inl hunmarking
        | true =>
          by_cases hnone : cfg.world.marker = none
          · obtain ⟨hmarks, hout⟩ := hcounts.2.2 k r w' hp hperform hbackups hnone
            exact Or.inr (Or.inr ⟨hmarks, Or.inr hout⟩)
          · exact Or.inr (Or.inl (hstays hnone))
      · obtain ⟨cache, localEvent⟩ := r
        cases localEvent with
        | none => exact Or.inl (hcareful.1 cache)
        | some e =>
          exact Or.inr (Or.inl (TellsOfMarker.marker hperform
            (show TellsOfMarker (.cacheAndLocal tab) (cache, some e) from rfl)))
    · exact Or.inl (hrest r)
  · exact Or.inr (Or.inl (hstays hmarker))
  · rcases hnext with ⟨id, rfl⟩ | ⟨hturn, hrest⟩
    · rw [(saveMarker_perform hperform).1]
      exact Or.inr (Or.inl (Option.some_ne_none id))
    · exact Or.inr (Or.inr ⟨hrest r, Or.inl (Or.inr ⟨hturn, hrest⟩)⟩)

theorem makes_step : Unmaking (k r) ∨ NoEvidence w' ∨ MarksNext (k r) := by
  have hrun := h.runs i _ hp
  obtain ⟨marked, hmarked, hcareful⟩ := hrun.careful
  rcases hrun.makes with hunmaking | hnone | hnext
  · rcases hunmaking.2 with (rfl | rfl) | hrest
    · -- The marker is looked for; inside the lock this is where nothing must tell of a seed.
      cases r with
      | some id => exact Or.inl (hcareful.1 id)
      | none =>
        have hsame : SameRecord cfg.world w' := sameRecord_perform (by rintro ⟨_, ⟨⟩⟩)
          (fun heq => by cases heq) (by rintro ⟨_, ⟨⟩⟩) hperform
        have hmarker : cfg.world.marker = none := by
          cases c with
          | quiet => exact (Prod.mk.inj (Option.some.inj hperform)).1
          | _ => cases hperform
        by_cases houtside : Outside (.call .loadMarker k)
        · have hrest : Outside (k none) := (houtside.2.resolve_left fun heq => by cases heq) none
          exact Or.inl hrest.unmaking
        · by_cases htold : cfg.world.seen = true ∨ cfg.world.made ≠ []
          · obtain ⟨j, q, hq, hmarks⟩ := (h.evidence htold).resolve_left (· hmarker)
            by_cases hji : j = i
            · subst hji
              obtain rfl := Option.some.inj (hq.symm.trans hp)
              exact Or.inr (Or.inr ((hmarks.resolve_left (by rintro ⟨_, ⟨⟩⟩)).2 none))
            · obtain ⟨-, hrest⟩ := (h.apart i j _ q (Ne.symm hji) hp hq).resolve_left houtside
              exact absurd hmarks (hrest.resolve_left (· hmarker))
          · obtain ⟨hseen, hmade⟩ := not_or.mp htold
            right; left
            exact ⟨hsame.1.trans hmarker, hsame.2.1.trans (Bool.eq_false_of_not_eq_true hseen),
              hsame.2.2.1.trans (not_not.mp hmade)⟩
    · cases r with
      | true => exact Or.inl hcareful.1.1
      | false => exact Or.inl hcareful.1.2.unmaking
    · exact Or.inl (hrest r)
  · by_cases hmark : op.IsMark
    · obtain ⟨id, rfl⟩ := hmark
      exact Or.inl (hcareful.1 r)
    · by_cases hquery : op = .queryOnce
      · subst hquery
        obtain ⟨hmarker, hseen, hmade, -⟩ := queryOnce_perform hperform
        cases hbackups : List.any r (isSeedBackup host) with
        | false =>
          rw [hbackups, Bool.or_false] at hseen
          exact Or.inr (Or.inl ⟨hmarker.trans hnone.1, hseen.trans hnone.2.1,
            hmade.trans hnone.2.2⟩)
        | true => exact Or.inr (Or.inr (hcounts.2.2 k r w' hp hperform hbackups hnone.1).1)
      · by_cases hmade : op.IsMade
        · obtain ⟨e, rfl⟩ := hmade
          cases r with
          | true => exact Or.inr (Or.inr hcareful.1)
          | false =>
            obtain ⟨kept, rfl⟩ := (publishNew_perform hperform).2.2.2.2 rfl
            exact absurd rfl (hcounts.2.1 e k kept hp)
        · obtain ⟨hmarker, hseen, hmade', -⟩ := sameRecord_perform hmark hquery hmade hperform
          exact Or.inr (Or.inl ⟨hmarker.trans hnone.1, hseen.trans hnone.2.1,
            hmade'.trans hnone.2.2⟩)
  · rcases hnext with ⟨id, rfl⟩ | ⟨-, hrest⟩
    · exact Or.inl (hcareful.1 r)
    · exact Or.inr (Or.inr (hrest r))

include hlock in
theorem outside_step : Outside (k r) ∨ ∀ j q, j ≠ i → cfg.slots j = some q →
    Outside q ∧ (w'.marker ≠ none ∨ ¬ MarksNext q) := by
  have hstays := marker_perform hperform
  by_cases houtside : Outside (.call op k)
  · rcases houtside.2 with rfl | hrest
    · obtain ⟨marked, -, hcareful⟩ := (h.runs i _ hp).careful
      cases r with
      | false => exact Or.inl hcareful.1.2
      | true =>
        have hgranted : c = .answers true := by
          cases c with
          | answers b =>
            obtain ⟨rfl, -⟩ := Prod.mk.inj (Option.some.inj hperform)
            rfl
          | _ => cases hperform
        refine Or.inr fun j q hji hq => ⟨hlock k hp hgranted j q hji hq, ?_⟩
        by_cases hnone : cfg.world.marker = none
        · exact Or.inr (hcounts.1 k hp hgranted hnone j q hji hq)
        · exact Or.inl (hstays hnone)
    · exact Or.inl (hrest r)
  · refine Or.inr fun j q hji hq => ?_
    obtain ⟨hout, hrest⟩ := (h.apart i j _ q (Ne.symm hji) hp hq).resolve_left houtside
    exact ⟨hout, hrest.imp_left hstays⟩

include hlock in
theorem apart_step {j : ι} {q : SeedProg SeedResult} (hji : j ≠ i) (hq : cfg.slots j = some q) :
    Apart w' (k r) q ∧ Apart w' q (k r) := by
  have hstays := marker_perform hperform
  rcases outside_step h hp hperform hlock hcounts with houtside | hothers
  · refine ⟨Or.inl houtside, ?_⟩
    rcases h.apart j i q _ hji hq hp with hout | ⟨-, hold⟩
    · exact Or.inl hout
    · rcases marks_step h hp hperform hcounts with hunmarking | hmarker | ⟨-, hmarks | hout⟩
      · exact Or.inr ⟨houtside, Or.inr fun hmarks => hmarks.not_unmarking hunmarking⟩
      · exact Or.inr ⟨houtside, Or.inl hmarker⟩
      · exact Or.inr ⟨houtside, Or.inl (hstays (hold.resolve_right (not_not.mpr hmarks)))⟩
      · exact Or.inl (hout j q hji hq)
  · exact ⟨Or.inr (hothers j q hji hq), Or.inl (hothers j q hji hq).1⟩

theorem others_step {j : ι} {q : SeedProg SeedResult} (hji : j ≠ i) (hq : cfg.slots j = some q) :
    SameRecord cfg.world w' ∨ Outside q ∨ cfg.world.marker ≠ none := by
  by_cases hmark : op.IsMark
  · rcases (h.runs i _ hp).marks with hunmarking | hmarker | hnext
    · exact absurd hmark hunmarking.1
    · exact Or.inr (Or.inr hmarker)
    · rcases h.apart j i q _ hji hq hp with hout | ⟨-, hmarker | hnot⟩
      · exact Or.inr (Or.inl hout)
      · exact Or.inr (Or.inr hmarker)
      · exact absurd hnext hnot
  · by_cases hquery : op = .queryOnce
    · subst hquery
      obtain ⟨hmarker, hseen, hmade, hlate⟩ := queryOnce_perform hperform
      cases hbackups : List.any r (isSeedBackup host) with
      | false =>
        rw [hbackups, Bool.or_false] at hseen
        exact Or.inl ⟨hmarker, hseen, hmade, hlate⟩
      | true =>
        by_cases hnone : cfg.world.marker = none
        · exact Or.inr (Or.inl ((hcounts.2.2 k r w' hp hperform hbackups hnone).2 j q hji hq))
        · exact Or.inr (Or.inr hnone)
    · by_cases hmade : op.IsMade
      · rcases h.apart i j _ q (Ne.symm hji) hp hq with hout | ⟨hout, -⟩
        · exact absurd (Or.inl hmade) hout.1
        · exact Or.inr (Or.inl hout)
      · exact Or.inl (sameRecord_perform hmark hquery hmade hperform)

theorem evidence_step (htold : w'.seen = true ∨ w'.made ≠ []) : w'.marker ≠ none ∨
    (∃ p, some (k r) = some p ∧ MarksNext p) ∨
    ∃ j p, j ≠ i ∧ cfg.slots j = some p ∧ MarksNext p := by
  have hstays := marker_perform hperform
  by_cases hbefore : cfg.world.seen = true ∨ cfg.world.made ≠ []
  · rcases h.evidence hbefore with hmarker | ⟨j, p, hj, hmarks⟩
    · exact Or.inl (hstays hmarker)
    · by_cases hji : j = i
      · subst hji
        obtain rfl := Option.some.inj (hj.symm.trans hp)
        rcases hmarks with ⟨id, rfl⟩ | ⟨-, hrest⟩
        · rw [(saveMarker_perform hperform).1]
          exact Or.inl (Option.some_ne_none id)
        · exact Or.inr (Or.inl ⟨_, rfl, hrest r⟩)
      · exact Or.inr (Or.inr ⟨j, p, hji, hj, hmarks⟩)
  -- The step itself has told of the seed.
  · obtain ⟨hunseen, hunmade⟩ := not_or.mp hbefore
    by_cases hquery : op = .queryOnce
    · subst hquery
      obtain ⟨-, hseen, hmade, -⟩ := queryOnce_perform hperform
      rw [hseen, hmade, Bool.eq_false_of_not_eq_true hunseen, Bool.false_or] at htold
      have hbackups := htold.resolve_right hunmade
      by_cases hnone : cfg.world.marker = none
      · exact Or.inr (Or.inl ⟨_, rfl, (hcounts.2.2 k r w' hp hperform hbackups hnone).1⟩)
      · exact Or.inl (hstays hnone)
    · by_cases hmade : op.IsMade
      · obtain ⟨e, rfl⟩ := hmade
        obtain ⟨marked, -, hcareful⟩ := (h.runs i _ hp).careful
        cases r with
        | true => exact Or.inr (Or.inl ⟨_, rfl, hcareful.1⟩)
        | false =>
          obtain ⟨kept, rfl⟩ := (publishNew_perform hperform).2.2.2.2 rfl
          exact absurd rfl (hcounts.2.1 e k kept hp)
      · by_cases hmark : op.IsMark
        · obtain ⟨id, rfl⟩ := hmark
          rw [(saveMarker_perform hperform).1]
          exact Or.inl (Option.some_ne_none id)
        · obtain ⟨-, hseen, hmade', -⟩ := sameRecord_perform hmark hquery hmade hperform
          rw [hseen, hmade'] at htold
          exact absurd htold hbefore

omit hcounts in
theorem once_step : w'.late = false ∧ w'.made.length ≤ 1 := by
  by_cases hmade : op.IsMade
  · obtain ⟨e, rfl⟩ := hmade
    obtain ⟨-, -, hmade', hlate, -⟩ := publishNew_perform hperform
    -- A new seed is published where nothing tells of another.
    have hnone : NoEvidence cfg.world := by
      rcases (h.runs i _ hp).makes with hunmaking | hnone | hnext
      · exact absurd ⟨e, rfl⟩ hunmaking.1
      · exact hnone
      · rcases hnext with ⟨_, ⟨⟩⟩ | ⟨hturn, -⟩
        exact absurd (Or.inl ⟨e, rfl⟩) hturn
    rw [hlate, hmade', hnone.2.1, hnone.2.2, h.once.1]
    exact ⟨rfl, Nat.le_refl 1⟩
  · by_cases hquery : op = .queryOnce
    · subst hquery
      obtain ⟨-, -, hsame, hlate⟩ := queryOnce_perform hperform
      rw [hsame, hlate]
      exact h.once
    · by_cases hmark : op.IsMark
      · obtain ⟨id, rfl⟩ := hmark
        obtain ⟨-, -, hsame, hlate⟩ := saveMarker_perform hperform
        rw [hsame, hlate]
        exact h.once
      · obtain ⟨-, -, hsame, hlate⟩ := sameRecord_perform hmark hquery hmade hperform
        rw [hsame, hlate]
        exact h.once

end Step

variable [DecidableEq ι] {cfg cfg' : Config (seedPlatform host) ι SeedResult}

theorem SeedInv.step (h : SeedInv cfg) {ev : Event (seedPlatform host) ι SeedRequest}
    (hlock : LockIsSingle cfg ev) (hcounts : RecordsSeeds cfg ev)
    (hexec : cfg.exec (SeedRequest.run host) ev = .ok cfg') : SeedInv cfg' := by
  -- Without the run of a slot that starts or stops the evidence is in another one.
  have hleft : ∀ i, (cfg.world.marker = none → ∀ p, cfg.slots i = some p → ¬ MarksNext p) →
      cfg.world.seen = true ∨ cfg.world.made ≠ [] → cfg.world.marker ≠ none ∨
        ∃ j p, j ≠ i ∧ cfg.slots j = some p ∧ MarksNext p := by
    intro i hfree htold
    by_cases hnone : cfg.world.marker = none
    · obtain ⟨j, p, hj, hmarks⟩ := (h.evidence htold).resolve_left (· hnone)
      exact Or.inr ⟨j, p, fun hji => hfree hnone p (hji ▸ hj) hmarks, hj, hmarks⟩
    · exact Or.inl hnone
  cases exec_happens hexec with
  | start i request =>
    refine h.replace id (fun p hp => Option.some.inj hp ▸ runOk_run _ request)
      (fun _ _ _ _ => Or.inl ⟨rfl, rfl, rfl, rfl⟩) (fun p hp j q hji hq => ?_)
      (fun htold => (hleft i hcounts htold).imp_right Or.inr) h.once
    obtain rfl := Option.some.inj hp
    have hstart : Starts host (request.run host) := starts_run request
    exact ⟨Or.inl hstart.outside, Or.inr ⟨hstart.outside,
      Or.inr fun hmarks => hmarks.not_unmarking hstart.unmarking⟩⟩
  | stop i =>
    exact h.replace id (fun p hp => by cases hp) (fun _ _ _ _ => Or.inl ⟨rfl, rfl, rfl, rfl⟩)
      (fun p hp => by cases hp) (fun htold => (hleft i hcounts htold).imp_right Or.inr) h.once
  | @step i c op k r w' hp hperform =>
    refine h.replace (marker_perform hperform) (fun p hq => ?_)
      (fun j q hji hq => others_step h hp hperform hcounts hji hq)
      (fun p hq j q hji hj => Option.some.inj hq ▸ apart_step h hp hperform hlock hcounts hji hj)
      (evidence_step h hp hperform hcounts) (once_step h hp hperform)
    obtain rfl := Option.some.inj hq
    obtain ⟨marked, hmarked, hcareful⟩ := (h.runs i _ hp).careful
    refine ⟨⟨_, ?_, hcareful.2 r⟩, ?_, makes_step h hp hperform hcounts⟩
    · rintro (hm | htells)
      · exact marker_perform hperform (hmarked hm)
      · exact htells.marker hperform
    · rcases marks_step h hp hperform hcounts with hunmarking | hmarker | ⟨hmarks, -⟩
      · exact Or.inl hunmarking
      · exact Or.inr (Or.inl hmarker)
      · exact Or.inr (Or.inr hmarks)
  | @drift c w' hdrift =>
    have hsame : SameRecord cfg.world w' := sameRecord_drift hdrift
    obtain ⟨hmarker, hseen, hmade, hlate⟩ := hsame
    refine ⟨fun i p hp => (h.runs i p hp).other (by rw [hmarker]; exact id)
      (Or.inl ⟨hmarker, hseen, hmade, hlate⟩), fun i j p q hij hp hq => ?_, fun htold => ?_, ?_⟩
    · have hapart := h.apart i j p q hij hp hq
      unfold Apart at hapart ⊢
      rw [hmarker]
      exact hapart
    · dsimp only at htold ⊢
      rw [hseen, hmade] at htold
      rw [hmarker]
      exact h.evidence htold
    · dsimp only
      rw [hlate, hmade]
      exact h.once

end Runs

/-! ### Two runs -/

def launch (e : RawEvent) : List (Event (seedPlatform sampleSeedHost) Unit SeedRequest) :=
  [.start () (.getOrCreate 0 {})] ++
    ([.quiet, .reads [], .quiet, .quiet, .answers true, .answers true, .quiet, .quiet, .reads [],
      .answers true, .mints e.id, .ciphers e.id, .signs e] : List SeedChoice).map fun c =>
        .step () c

def recordsSeeds (cfg : Config (seedPlatform sampleSeedHost) Unit SeedResult) :
    Event (seedPlatform sampleSeedHost) Unit SeedRequest → Bool
  | .start _ _ | .stop _ =>
    match cfg.slots () with
    | some (.call _ _) => false
    | _ => true
  | .step _ (.throws _) => false
  | .step _ (.reads positions) =>
    !(positions.filterMap fun i => cfg.world.held[i]?).any (isSeedBackup sampleSeedHost)
  | _ => true

theorem recordsSeeds_sound (cfg : Config (seedPlatform sampleSeedHost) Unit SeedResult)
    (ev : Event (seedPlatform sampleSeedHost) Unit SeedRequest)
    (h : recordsSeeds cfg ev = true) : LockIsSingle cfg ev ∧ RecordsSeeds cfg ev := by
  have hrests : recordsSeeds cfg (.stop ()) = true →
      ∀ p, cfg.slots () = some p → ¬ MarksNext p := by
    intro hrest p hp
    cases p with
    | ret a => exact id
    | call op k =>
      unfold recordsSeeds at hrest
      rw [hp] at hrest
      cases hrest
  cases ev with
  | start i request => exact ⟨trivial, fun _ => hrests h⟩
  | stop i => exact ⟨trivial, fun _ => hrests h⟩
  | drift c => exact ⟨trivial, trivial⟩
  | step i c =>
    refine ⟨fun _ _ _ j _ hji => absurd rfl hji, fun _ _ _ _ j _ hji => absurd rfl hji,
      fun e k kept _ hc => ?_, fun k events w _ hperform hbackups => ?_⟩
    · subst hc
      cases h
    · cases c with
      | reads positions =>
        obtain ⟨rfl, -⟩ := Prod.mk.inj (Option.some.inj hperform)
        unfold recordsSeeds at h
        rw [Bool.not_eq_true'] at h
        exact absurd (h.symm.trans hbackups) Bool.false_ne_true
      | _ => cases hperform

end Seed

end ChamaEscrow
