import ChamaEscrow.Client.SeedManager
import ChamaEscrow.Js.Rounding

/-!
# What a fresh device restores

Two functions of the seed manager decide for a device that is not there: `republishSeed` writes into
the slot that a fresh device reads, and `confirmSeedBackupOnRelays` says that a fresh device would
open the seed of this one.

* `republish_restores`: what is republished carries the words that a fresh device would have opened
  from the backups that were read, exactly if the newest of their v1 copies that opens has the
  cached words; nothing compares the two.
* `republish_displaces`: an older seed is written over a newer one.
* `confirmed_restores`: a confirmed backup restores the words of the tab that confirmed it, or asks
  for the code of the copy that it opened, as long as the saved copy was still the one the words
  came from and no copy that was read has a second `d` tag.
* `confirmed_retired`: another tab saves a retirement in its place, which is confirmed as the
  backup.
-/

namespace ChamaEscrow

open Js Library

namespace Seed

variable (host : SeedHost) {α β : Type}

/-! ### The tasks -/

inductive SeedTask
  | seed (request : SeedRequest)
  | republish (tab : ℕ)
  | keepAlive (tab : ℕ) (now : JsNumber)
  | confirm (tab : ℕ) (mayPrompt : Bool)

def SeedTask.run : SeedTask → SeedProg SeedResult
  | seed request => request.run host
  | republish tab => republishSeed host tab
  | keepAlive tab now => checkAndMaybeRepublishSeed host tab now
  | confirm tab mayPrompt => confirmSeedBackupOnRelays host tab mayPrompt

/-! ### The order of the copies -/

section Order

variable {a b c : RawEvent}

theorem newestFirst_iff : newestFirst a b = true ↔
    b.createdAt < a.createdAt ∨ (b.createdAt ≤ a.createdAt ∧ b.id ≤ a.id) := by
  have hle : ¬ a.createdAt < b.createdAt ↔ b.createdAt ≤ a.createdAt :=
    ⟨JsNumber.le_of_not_lt a.event.createdAt_ne b.event.createdAt_ne, JsNumber.not_lt_of_le⟩
  unfold newestFirst
  simp [hle]

theorem createdAt_of_newestFirst (h : newestFirst a b = true) : b.createdAt ≤ a.createdAt :=
  (newestFirst_iff.mp h).elim JsNumber.le_of_lt And.left

theorem newestFirst_total (a b : RawEvent) : newestFirst a b = true ∨ newestFirst b a = true := by
  rw [newestFirst_iff, newestFirst_iff]
  by_cases hba : b.createdAt < a.createdAt
  · exact Or.inl (Or.inl hba)
  · have hle := JsNumber.le_of_not_lt b.event.createdAt_ne a.event.createdAt_ne hba
    by_cases hab : a.createdAt < b.createdAt
    · exact Or.inr (Or.inl hab)
    · have hge := JsNumber.le_of_not_lt a.event.createdAt_ne b.event.createdAt_ne hab
      exact (String.le_total b.id a.id).imp (fun hid => Or.inr ⟨hge, hid⟩)
        fun hid => Or.inr ⟨hle, hid⟩

theorem newestFirst_trans (hab : newestFirst a b = true) (hbc : newestFirst b c = true) :
    newestFirst a c = true := by
  have hle := createdAt_of_newestFirst hab
  have hle' := createdAt_of_newestFirst hbc
  rw [newestFirst_iff] at hab hbc ⊢
  rcases hab with hlt | ⟨-, hid⟩
  · exact Or.inl (JsNumber.lt_of_le_of_lt hle' hlt)
  · rcases hbc with hlt | ⟨-, hid'⟩
    · exact Or.inl (JsNumber.lt_of_lt_of_le hlt hle)
    · exact Or.inr ⟨JsNumber.le_trans hle' hle, String.le_trans hid' hid⟩

end Order

/-- The copies are in the order of their times already. -/
theorem recover_sortNewest (nip04Decrypt : Option (String → Decryption)) (events : List RawEvent) :
    recoverSeedWordsFromEvents host nip04Decrypt (sortNewest events) =
      firstMnemonic host nip04Decrypt (sortNewest events) := by
  have htotal : Std.Total fun a b => newestFirst a b = true := ⟨newestFirst_total⟩
  have htrans : IsTrans RawEvent fun a b => newestFirst a b = true :=
    ⟨fun _ _ _ => newestFirst_trans⟩
  have hpairwise : (sortNewest events).Pairwise fun a b => newestFirst a b = true :=
    List.pairwise_insertionSort _ events
  unfold recoverSeedWordsFromEvents
  rw [List.Pairwise.insertionSort_eq (hpairwise.imp fun hab => ?_)]
  rw [Bool.not_eq_true', decide_eq_false_iff_not]
  exact JsNumber.not_lt_of_le (createdAt_of_newestFirst hab)

/-! ### What is published and what is confirmed -/

variable {w w' : SeedWorld} {op : SeedOp}

namespace SeedOp

/-- What holds of what is republished. -/
def Grounded : SeedOp → Prop
  | publishRaw (.republished backups seed) e =>
    mayRepublish host backups = true ∧ host.nip44Decrypt e.content = .opens (joinWords seed)
  | _ => True

def Replied : (op : SeedOp) → op.Reply → Prop
  | encrypt mnemonic, some content => host.nip44Decrypt content = .opens mnemonic
  | sign content, some e => e.content = content
  | cacheAndLocal _, (_, some e) => isSeedBackup host e = true ∧ host.verifySignature e = true
  | _, _ => True

variable {host} in
theorem replied_of_perform {c : SeedChoice} {r : op.Reply}
    (h : performSeed host op w c = some (r, w')) : op.Replied host r := by
  cases op with
  | encrypt mnemonic =>
    cases r with
    | none => trivial
    | some content =>
      cases c with
      | ciphers content =>
        unfold performSeed at h
        dsimp only at h
        split at h
        · rename_i plain hopens
          split_ifs at h with hsame
          obtain ⟨hcontent, -⟩ := Prod.mk.inj (Option.some.inj h)
          subst hsame
          obtain rfl := Option.some.inj hcontent
          exact hopens
        · cases h
      | throws => cases h
      | _ => cases h
  | sign content =>
    cases r with
    | none => trivial
    | some e =>
      cases c with
      | signs e =>
        unfold performSeed at h
        dsimp only at h
        split_ifs at h with hsigned
        obtain ⟨he, -⟩ := Prod.mk.inj (Option.some.inj h)
        obtain rfl := Option.some.inj he
        exact hsigned.1
      | throws => cases h
      | _ => cases h
  | cacheAndLocal tab =>
    cases c with
    | quiet =>
      obtain ⟨rfl, -⟩ := Prod.mk.inj (Option.some.inj h)
      cases hlocal : loadLocalSeedEvent host w with
      | none => trivial
      | some e =>
        unfold loadLocalSeedEvent at hlocal
        rw [Option.filter_eq_some_iff] at hlocal
        obtain ⟨hbackup, hsigned⟩ := Bool.and_eq_true_iff.mp hlocal.2
        exact ⟨(Bool.and_eq_true_iff.mp hbackup).2, hsigned⟩
    | _ => cases h
  | _ => trivial

end SeedOp

/-- What holds of what is confirmed. -/
def SeedResult.Grounded : SeedResult → Prop
  | confirmed seed _ localEvent events =>
    (isSeedBackup host localEvent = true ∧ host.verifySignature localEvent = true) ∧
    (∀ e ∈ events, isSeedBackup host e = true ∧ host.verifySignature e = true) ∧
    ∃ mayPrompt newer, verdict host localEvent seed mayPrompt events = .ok (.ours newer)
  | _ => True

def Grounded (Q : α → Prop) : SeedProg α → Prop
  | .ret a => Q a
  | .call op k => op.Grounded host ∧ ∀ r, op.Replied host r → Grounded Q (k r)

variable {host}

theorem grounded_bind {Q : β → Prop} {p : SeedProg α} {f : α → SeedProg β}
    (h : Grounded host (fun a => Grounded host Q (f a)) p) : Grounded host Q (p >>= f) := by
  induction p with
  | ret a => exact h
  | call op k ih => exact ⟨h.1, fun r hr => ih r (h.2 r hr)⟩

theorem Grounded.imp {Q Q' : α → Prop} {p : SeedProg α} (h : Grounded host Q p)
    (himp : ∀ a, Q a → Q' a) : Grounded host Q' p := by
  induction p with
  | ret a => exact himp a h
  | call op k ih => exact ⟨h.1, fun r hr => ih r (h.2 r hr)⟩

/-! ### The runs that open a seed -/

section Opening

variable {tab : ℕ} {options : SeedReadOptions} {deferred : SeedProg SeedResult}

theorem grounded_call {Q : α → Prop} {k : op.Reply → SeedProg α}
    (hop : op.Grounded host) (h : ∀ r, Grounded host Q (k r)) : Grounded host Q (.call op k) :=
  ⟨hop, fun r _ => h r⟩

theorem grounded_openProtectedSeed {e : RawEvent} :
    Grounded host (·.Grounded host) (openProtectedSeed host tab options e) := by
  unfold openProtectedSeed
  split
  · trivial
  · split
    · split
      · trivial
      · split_ifs
        · trivial
        · exact grounded_call trivial fun _ => grounded_call trivial fun _ =>
            grounded_call trivial fun _ => trivial
    · trivial

theorem grounded_adoptLegacy {words : List String} {e : RawEvent} :
    Grounded host (·.Grounded host) (adoptLegacy tab options words e) := by
  refine grounded_call trivial fun pending => ?_
  simp only [Prog.bind]
  split_ifs
  · trivial
  · exact grounded_call trivial fun _ => grounded_call trivial fun _ =>
      grounded_call trivial fun _ => trivial

def GroundedOption (host : SeedHost) (created : Option SeedResult) : Prop :=
  ∀ result ∈ created, result.Grounded host

theorem grounded_publishNewSeed : Grounded host (GroundedOption host) (publishNewSeed tab) := by
  have hthrew : ∀ err, GroundedOption host (some (.threw err)) := by
    rintro err _ ⟨⟩
    trivial
  have hwords : ∀ words, GroundedOption host (some (.words words)) := by
    rintro words _ ⟨⟩
    trivial
  refine grounded_call trivial fun mnemonic => grounded_call trivial fun content => ?_
  cases content with
  | none => exact hthrew _
  | some content =>
    refine grounded_call trivial fun signed => ?_
    cases signed with
    | none => exact hthrew _
    | some signed =>
      refine grounded_call trivial fun stored => ?_
      cases stored with
      | false => exact hthrew _
      | true => exact grounded_call trivial fun _ => grounded_call trivial fun _ =>
          grounded_call trivial fun _ => grounded_call trivial fun _ => hwords _

theorem grounded_createSeed :
    Grounded host (GroundedOption host) (createSeed host tab options) := by
  have hnone : GroundedOption host none := by
    rintro _ ⟨⟩
  refine grounded_call trivial fun cache => ?_
  simp only [Prog.bind]
  split_ifs
  · exact hnone
  · refine grounded_call trivial fun marker => ?_
    cases marker with
    | some id => exact hnone
    | none =>
      refine grounded_call trivial fun events => ?_
      simp only [Prog.bind]
      split_ifs
      · exact hnone
      · refine grounded_call trivial fun quorum => ?_
        simp only [Prog.bind]
        split_ifs
        · exact hnone
        · exact grounded_publishNewSeed

theorem grounded_withSeedCreationLock {p : SeedProg (Option SeedResult)}
    (h : Grounded host (GroundedOption host) p) :
    Grounded host (GroundedOption host) (withSeedCreationLock p) := by
  have hreleased : Grounded host (GroundedOption host) (p >>= fun created =>
      .call .release fun _ => .ret created) :=
    grounded_bind (h.imp fun created hcreated => ⟨trivial, fun _ _ => hcreated⟩)
  refine grounded_call trivial fun acquired => ?_
  cases acquired with
  | true => exact hreleased
  | false =>
    rintro _ ⟨⟩
    trivial

theorem grounded_createUnlessMarked (h : Grounded host (·.Grounded host) deferred) :
    Grounded host (·.Grounded host) (createUnlessMarked host tab options deferred) := by
  refine grounded_call trivial fun marker => ?_
  cases marker with
  | some id => trivial
  | none =>
    refine grounded_call trivial fun quorum => ?_
    simp only [Prog.bind]
    split_ifs
    · trivial
    · trivial
    · refine grounded_bind ((grounded_withSeedCreationLock grounded_createSeed).imp
        fun created hcreated => ?_)
      cases created with
      | none => exact h
      | some result => exact hcreated _ rfl

theorem grounded_openBackups (h : Grounded host (·.Grounded host) deferred)
    (existing : List RawEvent) :
    Grounded host (·.Grounded host) (openBackups host tab options deferred existing) := by
  unfold openBackups
  split
  · exact grounded_call trivial fun _ => grounded_call trivial fun _ => grounded_openProtectedSeed
  · exact grounded_call trivial fun _ => grounded_call trivial fun _ => trivial
  · exact grounded_adoptLegacy
  · trivial
  · trivial
  · exact grounded_call trivial fun _ => trivial
  · exact grounded_createUnlessMarked h

theorem grounded_queryUntilFound (tries : ℕ) :
    Grounded host (fun _ => True) (queryUntilFound host tries) := by
  induction tries with
  | zero => trivial
  | succ tries ih =>
    refine grounded_call trivial fun events => ?_
    simp only [Prog.bind, pure]
    split_ifs
    · exact ih
    · trivial

theorem grounded_readRelays (h : Grounded host (·.Grounded host) deferred)
    (localEvent : Option RawEvent) :
    Grounded host (·.Grounded host) (readRelays host tab options deferred localEvent) := by
  have hquery : Grounded host (fun _ => True) (queryWithRetry host) := by
    refine grounded_call trivial fun events => ?_
    simp only [Prog.bind, pure]
    split_ifs
    · refine grounded_call trivial fun marker => ?_
      cases marker with
      | some id => exact grounded_queryUntilFound 3
      | none => trivial
    · trivial
  exact grounded_bind (hquery.imp fun existing _ => grounded_openBackups h _)

theorem grounded_openLocal (h : Grounded host (·.Grounded host) deferred) (localEvent : RawEvent) :
    Grounded host (·.Grounded host) (openLocal host tab options deferred localEvent) := by
  unfold openLocal
  split_ifs
  · exact grounded_openProtectedSeed
  · trivial
  · trivial
  · exact grounded_readRelays h _
  · split
    · trivial
    · exact grounded_call trivial fun _ => trivial
    · exact grounded_readRelays h _

theorem grounded_getOrCreatePass (h : Grounded host (·.Grounded host) deferred) :
    Grounded host (·.Grounded host) (getOrCreatePass host tab options deferred) := by
  refine grounded_call trivial fun opening => ?_
  simp only [Prog.bind]
  unfold openSession
  split
  · unfold openCached
    split_ifs
    · trivial
    · exact grounded_call trivial fun _ => trivial
    · trivial
  · split_ifs
    · exact grounded_readRelays h _
    · exact grounded_openLocal h _
  · exact grounded_readRelays h _

theorem grounded_getOrCreateSeed :
    Grounded host (·.Grounded host) (getOrCreateSeed host tab options) := by
  unfold getOrCreateSeed
  split_ifs
  · exact grounded_getOrCreatePass trivial
  · exact grounded_getOrCreatePass (grounded_getOrCreatePass trivial)

end Opening

/-! ### `republishSeed` -/

variable {backups : List RawEvent}

section Republish

variable {tab : ℕ}

theorem grounded_republishOver {cache : SeedCache} {seed : List String}
    (hmay : mayRepublish host backups = true) :
    Grounded host (·.Grounded host) (republishOver host tab cache seed backups) := by
  refine grounded_call trivial fun again => ?_
  simp only [Prog.bind]
  split_ifs
  · trivial
  · refine ⟨trivial, fun content hcontent => ?_⟩
    cases content with
    | none => trivial
    | some content =>
      refine ⟨trivial, fun signed hsigned => ?_⟩
      cases signed with
      | none => trivial
      | some signed =>
        refine grounded_call trivial fun last => ?_
        simp only [Prog.bind]
        split_ifs
        · trivial
        · have hopens : host.nip44Decrypt signed.content = .opens (joinWords seed) :=
            (congrArg host.nip44Decrypt hsigned).trans hcontent
          refine grounded_call ⟨hmay, hopens⟩ fun stored => ?_
          cases stored with
          | false => trivial
          | true => exact grounded_call trivial fun _ => grounded_call trivial fun _ => trivial

theorem grounded_republishSeed : Grounded host (·.Grounded host) (republishSeed host tab) := by
  refine grounded_call trivial fun cache => ?_
  simp only [Prog.bind]
  split
  · trivial
  · split_ifs
    · trivial
    · refine grounded_call trivial fun backups => grounded_call trivial fun quorum => ?_
      simp only [Prog.bind]
      split_ifs with hread
      · exact grounded_republishOver (Bool.and_eq_true_iff.mp hread).2
      · trivial

theorem grounded_checkAndMaybeRepublishSeed {now : JsNumber} :
    Grounded host (·.Grounded host) (checkAndMaybeRepublishSeed host tab now) := by
  refine grounded_call trivial fun events => ?_
  simp only [Prog.bind, pure]
  split
  · trivial
  · split_ifs
    · exact grounded_republishSeed
    · trivial

end Republish

/-! ### `confirmSeedBackupOnRelays` -/

section Confirm

variable {tab : ℕ} {cache : SeedCache} {seed : List String} {localEvent : RawEvent}
  {events : List RawEvent} {mayPrompt : Bool}

theorem grounded_concludeVerdict {missing : SeedProg SeedResult}
    (hlocal : isSeedBackup host localEvent = true ∧ host.verifySignature localEvent = true)
    (hevents : ∀ e ∈ events, isSeedBackup host e = true ∧ host.verifySignature e = true)
    (hmissing : Grounded host (·.Grounded host) missing) :
    Grounded host (·.Grounded host) (concludeVerdict cache seed localEvent events missing
      (verdict host localEvent seed mayPrompt events)) := by
  cases hverdict : verdict host localEvent seed mayPrompt events with
  | error err => trivial
  | ok v =>
    cases v with
    | ours newer =>
      have hresult : (SeedResult.confirmed seed cache.openedFrom localEvent events).Grounded host :=
        ⟨hlocal, hevents, mayPrompt, newer, hverdict⟩
      cases newer with
      | none => exact hresult
      | some e => exact grounded_call trivial fun _ => grounded_call trivial fun _ => hresult
    | missing => exact hmissing
    | unchecked | different => trivial

theorem grounded_readCopies_bind {f : List RawEvent → SeedProg SeedResult}
    (h : ∀ events, (∀ e ∈ events, isSeedBackup host e = true ∧ host.verifySignature e = true) →
      Grounded host (·.Grounded host) (f events)) :
    Grounded host (·.Grounded host) (readCopies host >>= f) := by
  refine grounded_call trivial fun events => h _ fun e he => ?_
  exact Bool.and_eq_true_iff.mp (List.mem_filter.mp he).2

theorem grounded_confirmSeedBackupOnRelays :
    Grounded host (·.Grounded host) (confirmSeedBackupOnRelays host tab mayPrompt) := by
  refine ⟨trivial, fun opening hopening => ?_⟩
  obtain ⟨cache, localEvent⟩ := opening
  simp only [Prog.bind]
  split
  · refine grounded_readCopies_bind fun events hevents =>
      grounded_concludeVerdict hopening hevents (grounded_call trivial fun quorum => ?_)
    simp only [Prog.bind]
    split_ifs
    · trivial
    · exact grounded_call trivial fun _ => grounded_readCopies_bind fun events hevents =>
        grounded_concludeVerdict hopening hevents trivial
  · trivial

end Confirm

theorem grounded_run (task : SeedTask) : Grounded host (·.Grounded host) (task.run host) := by
  cases task with
  | seed request =>
    cases request with
    | getOrCreate tab options => exact grounded_getOrCreateSeed
    | getExisting tab allowUserAction =>
      refine grounded_call trivial fun cache => ?_
      simp only [Prog.bind]
      split
      · trivial
      · split_ifs
        · trivial
        · exact grounded_getOrCreateSeed
  | republish tab => exact grounded_republishSeed
  | keepAlive tab now => exact grounded_checkAndMaybeRepublishSeed
  | confirm tab mayPrompt => exact grounded_confirmSeedBackupOnRelays

/-! ### Runs -/

section Runs

theorem republished_perform {c : SeedChoice} {r : op.Reply}
    (h : performSeed host op w c = some (r, w')) :
    w'.republished = w.republished ∨ ∃ backups seed e,
      op = .publishRaw (.republished backups seed) e ∧
      w'.republished = (e, backups, seed) :: w.republished := by
  cases op with
  | publishRaw why e =>
    cases why with
    | republished backups seed =>
      cases c with
      | stores | throws =>
        obtain ⟨-, rfl⟩ := Prod.mk.inj (Option.some.inj h)
        exact Or.inr ⟨backups, seed, e, rfl, rfl⟩
      | _ => cases h
    | created | resent =>
      cases c with
      | stores | throws =>
        obtain ⟨-, rfl⟩ := Prod.mk.inj (Option.some.inj h)
        exact Or.inl rfl
      | _ => cases h
  | encrypt mnemonic =>
    cases c with
    | ciphers content =>
      unfold performSeed at h
      dsimp only at h
      split at h
      · split_ifs at h
        obtain ⟨-, rfl⟩ := Prod.mk.inj (Option.some.inj h)
        exact Or.inl rfl
      · cases h
    | throws =>
      obtain ⟨-, rfl⟩ := Prod.mk.inj (Option.some.inj h)
      exact Or.inl rfl
    | _ => cases h
  | sign content =>
    cases c with
    | signs e =>
      unfold performSeed at h
      dsimp only at h
      split_ifs at h
      obtain ⟨-, rfl⟩ := Prod.mk.inj (Option.some.inj h)
      exact Or.inl rfl
    | throws =>
      obtain ⟨-, rfl⟩ := Prod.mk.inj (Option.some.inj h)
      exact Or.inl rfl
    | _ => cases h
  | queryOnce =>
    cases c with
    | reads =>
      obtain ⟨-, rfl⟩ := Prod.mk.inj (Option.some.inj h)
      exact Or.inl rfl
    | _ => cases h
  | hasQuorum | acquire =>
    cases c with
    | answers =>
      obtain ⟨-, rfl⟩ := Prod.mk.inj (Option.some.inj h)
      exact Or.inl rfl
    | _ => cases h
  | generate =>
    cases c with
    | mints =>
      obtain ⟨-, rfl⟩ := Prod.mk.inj (Option.some.inj h)
      exact Or.inl rfl
    | _ => cases h
  | _ =>
    cases c with
    | quiet =>
      obtain ⟨-, rfl⟩ := Prod.mk.inj (Option.some.inj h)
      exact Or.inl rfl
    | _ => cases h

theorem republished_drift {c : SeedChoice} (h : driftSeed host w c = some w') :
    w'.republished = w.republished := by
  cases c with
  | appears | clears =>
    unfold driftSeed at h
    dsimp only at h
    split_ifs at h
    obtain rfl := Option.some.inj h
    rfl
  | _ => cases h

variable {ι : Type} [DecidableEq ι] {cfg : Config (seedPlatform host) ι SeedResult}

theorem grounded_of_reachable
    (h : Reachable (Config.exec (SeedTask.run host))
      (Idle fun w : SeedWorld => w.republished = []) cfg) :
    (∀ e backups seed, (e, backups, seed) ∈ cfg.world.republished →
      mayRepublish host backups = true ∧
      host.nip44Decrypt e.content = .opens (joinWords seed)) ∧
    ∀ i result, cfg.slots i = some (.ret result) → result.Grounded host := by
  have hall := slots_invariant
    (J := fun w : SeedWorld => ∀ e backups seed, (e, backups, seed) ∈ w.republished →
      (SeedOp.publishRaw (.republished backups seed) e).Grounded host)
    (K := fun (p : SeedProg SeedResult) (_ : SeedWorld) => Grounded host (·.Grounded host) p) ?_
    (fun _ task _ => grounded_run task) (fun cfg i c op k r w _ hp hJ hK hperform => ?_)
    (fun cfg c w _ hJ hdrift => ?_) h
  · exact ⟨hall.1, fun i result hslot => hall.2 i _ hslot⟩
  · rintro _ ⟨w, hnone, rfl⟩
    refine ⟨fun e backups seed hmem => ?_, fun i p hp => by cases hp⟩
    rw [show (Config.idle w : Config (seedPlatform host) ι SeedResult).world = w from rfl, hnone]
      at hmem
    cases hmem
  · refine ⟨fun e backups seed hmem => ?_, hK.2 r (SeedOp.replied_of_perform hperform),
      fun j p _ _ hp => hp⟩
    rcases republished_perform hperform with hsame | ⟨backups', seed', e', rfl, hmore⟩
    · exact hJ e backups seed (hsame ▸ hmem)
    · rw [hmore] at hmem
      rcases List.mem_cons.mp hmem with heq | hmem
      · cases heq
        exact hK.1
      · exact hJ e backups seed hmem
  · refine ⟨fun e backups seed hmem => ?_, fun i p _ hp => hp⟩
    rw [republished_drift hdrift] at hmem
    exact hJ e backups seed hmem

end Runs

/-! ### A republish and the restore order -/

theorem legacyCopies_filter (backups : List RawEvent) :
    legacyCopies host (backups.filter (isSeedBackup host)) = legacyCopies host backups := by
  unfold legacyCopies
  rw [List.filter_filter]
  refine congrArg sortNewest (List.filter_congr fun e _ => ?_)
  unfold isSeedBackup
  cases isChamaSeedEvent host e <;> rfl

theorem restoreOrder_of_mayRepublish (h : mayRepublish host backups = true) (words : List String) :
    (∃ e, restoreOrder host (backups.filter (isSeedBackup host)) = .opened words e) ↔
      ∃ e, recoverSeedWordsFromEvents host host.nip04Decrypt (legacyCopies host backups) =
        .ok (some (words, e)) := by
  unfold mayRepublish at h
  obtain ⟨⟨-, hprotected⟩, hretired⟩ := by
    simpa only [Bool.and_eq_true, Bool.not_eq_true'] using h
  have hnone : (backups.filter (isSeedBackup host)).filter (isProtectedSeedEvent host) = [] := by
    refine List.filter_eq_nil_iff.mpr fun e he hp => ?_
    rw [List.any_eq_false] at hprotected
    exact hprotected e (List.mem_filter.mp he).1 hp
  have hopen : (legacyCopies host backups).find? (isRetiredSeed host) = none := by
    refine List.find?_eq_none.mpr fun e he => ?_
    rw [List.any_eq_false] at hretired
    exact hretired e ((List.mem_insertionSort _).mp he)
  unfold restoreOrder
  rw [hnone, legacyCopies_filter, hopen]
  simp only [List.filter_nil, sortNewest, List.insertionSort_nil, List.head?_nil]
  by_cases hempty : legacyCopies host backups = []
  · rw [if_pos hempty, hempty]
    constructor
    · rintro ⟨e, ⟨⟩⟩
    · rintro ⟨e, ⟨⟩⟩
  · rw [if_neg hempty]
    cases recoverSeedWordsFromEvents host host.nip04Decrypt (legacyCopies host backups) with
    | error err =>
      constructor
      · rintro ⟨e, ⟨⟩⟩
      · rintro ⟨e, ⟨⟩⟩
    | ok found =>
      cases found with
      | none =>
        constructor
        · rintro ⟨e, ⟨⟩⟩
        · rintro ⟨e, ⟨⟩⟩
      | some found =>
        constructor
        · rintro ⟨e, heq⟩
          cases heq
          exact ⟨_, rfl⟩
        · rintro ⟨e, heq⟩
          cases heq
          exact ⟨_, rfl⟩

/-- In every run of the tabs, what is republished over some backups opens to the words that a fresh
device would have opened from them, if and only if the newest of their v1 copies that opens has the
words that the tab had cached. -/
theorem republish_restores {ι : Type} [DecidableEq ι]
    {cfg : Config (seedPlatform host) ι SeedResult}
    (h : Reachable (Config.exec (SeedTask.run host))
      (Idle fun w : SeedWorld => w.republished = []) cfg)
    {e : RawEvent} {backups : List RawEvent} {seed : List String}
    (hmem : (e, backups, seed) ∈ cfg.world.republished) :
    (∃ words source, restoreOrder host (backups.filter (isSeedBackup host)) = .opened words source ∧
      host.nip44Decrypt e.content = .opens (joinWords words)) ↔
    ∃ words source, recoverSeedWordsFromEvents host host.nip04Decrypt (legacyCopies host backups) =
      .ok (some (words, source)) ∧ joinWords words = joinWords seed := by
  obtain ⟨hmay, hopens⟩ := (grounded_of_reachable h).1 e backups seed hmem
  have hrestore := restoreOrder_of_mayRepublish hmay
  constructor
  · rintro ⟨words, source, hopened, hsame⟩
    obtain ⟨source', hfound⟩ := (hrestore words).mp ⟨source, hopened⟩
    exact ⟨words, source', hfound, Decryption.opens.inj (hsame.symm.trans hopens)⟩
  · rintro ⟨words, source, hfound, hsame⟩
    obtain ⟨source', hopened⟩ := (hrestore words).mpr ⟨source, hfound⟩
    exact ⟨words, source', hopened, hopens.trans (congrArg Decryption.opens hsame.symm)⟩

/-! ### The first copy that opens -/

section Mnemonics

variable {e : RawEvent} {rest : List RawEvent} {nip04Decrypt : Option (String → Decryption)}

theorem firstMnemonic_cons_of_opened {found : List String × RawEvent}
    (h : firstMnemonic host nip04Decrypt [e] = .ok (some found)) :
    firstMnemonic host nip04Decrypt (e :: rest) = .ok (some found) := by
  rw [firstMnemonic] at h ⊢
  cases htry : tryDecryptSeedEvent host nip04Decrypt e with
  | error err =>
    rw [htry] at h
    cases h
  | ok plain =>
    rw [htry] at h
    cases plain with
    | none => cases h
    | some plain =>
      dsimp only at h ⊢
      split_ifs at h ⊢
      · exact h
      · cases h

theorem firstMnemonic_cons_of_passed (h : firstMnemonic host nip04Decrypt [e] = .ok none) :
    firstMnemonic host nip04Decrypt (e :: rest) = firstMnemonic host nip04Decrypt rest := by
  rw [firstMnemonic] at h
  rw [firstMnemonic]
  cases htry : tryDecryptSeedEvent host nip04Decrypt e with
  | error err =>
    rw [htry] at h
    cases h
  | ok plain =>
    rw [htry] at h
    cases plain with
    | none => rfl
    | some plain =>
      dsimp only at h ⊢
      split_ifs at h ⊢
      · cases h
      · rfl

theorem firstMnemonic_of_none {found : Option (List String × RawEvent)}
    (h : firstMnemonic host none [e] = .ok found) :
    firstMnemonic host nip04Decrypt [e] = .ok found := by
  have htry : tryDecryptSeedEvent host nip04Decrypt e = tryDecryptSeedEvent host none e := by
    by_cases hlegacy : (host.requiresUserAction && textIncludes e.content "?iv=") = true
    · unfold firstMnemonic tryDecryptSeedEvent at h
      rw [if_pos hlegacy] at h
      cases h
    · unfold tryDecryptSeedEvent
      rw [if_neg hlegacy, if_neg hlegacy]
  unfold firstMnemonic at h ⊢
  rw [htry]
  exact h

end Mnemonics

/-! ### One scope for each copy -/

/-- The event has at most one `d` tag. -/
def HasOneScope (e : RawEvent) : Prop :=
  (e.event.tags.filter fun tag => tag.head? = some "d").length ≤ 1

theorem dValues_of_hasOneScope {e : RawEvent} (h : HasOneScope e) :
    dValues e = (seedBackupScope e).toList := by
  unfold HasOneScope at h
  unfold dValues seedBackupScope
  generalize e.event.tags = tags at h ⊢
  induction tags with
  | nil => rfl
  | cons tag tags ih =>
    rw [List.filter_cons] at h
    rw [List.filterMap_cons, List.find?_cons]
    by_cases htag : tag.head? = some "d"
    · rw [if_pos (decide_eq_true htag), List.length_cons] at h
      have hrest : tags.filterMap
          (fun tag => if tag.head? = some "d" then tag[1]? else none) = [] := by
        have hnil : (tags.filter fun tag => tag.head? = some "d") = [] :=
          List.length_eq_zero_iff.mp (Nat.le_zero.mp (Nat.le_of_succ_le_succ h))
        refine List.filterMap_eq_nil_iff.mpr fun other hother => if_neg fun hd => ?_
        exact List.filter_eq_nil_iff.mp hnil other hother (decide_eq_true hd)
      rw [if_pos htag, hrest, decide_eq_true htag]
      simp only [Option.bind_some]
      cases tag[1]? <;> rfl
    · rw [if_neg (by simpa using htag)] at h
      rw [if_neg htag, decide_eq_false htag]
      exact ih h

section Scopes

variable {e : RawEvent} (hone : HasOneScope e)

include hone

theorem isBrowserProtected_iff :
    isBrowserProtectedSeedEvent e = true ↔ seedBackupScope e = some seedV2BrowserDTag := by
  unfold isBrowserProtectedSeedEvent
  rw [dValues_of_hasOneScope hone]
  cases seedBackupScope e with
  | none => simp
  | some d => simp

theorem isChamaSeedEvent_iff (hbackup : isSeedBackup host e = true) :
    isChamaSeedEvent host e = true ↔ seedBackupScope e = some chamaSeedDTag := by
  have howner :
      (decide (e.kind = chamaSeedKind) && decide (e.event.pubkey = host.pubkey)) = true := by
    unfold isSeedBackup isChamaSeedEvent isProtectedSeedEvent at hbackup
    rcases Bool.or_eq_true_iff.mp hbackup with h | h
    · exact (Bool.and_eq_true_iff.mp h).1
    · exact (Bool.and_eq_true_iff.mp (Bool.and_eq_true_iff.mp h).1).1
  unfold isChamaSeedEvent
  rw [howner, Bool.true_and, dValues_of_hasOneScope hone]
  cases seedBackupScope e with
  | none => simp
  | some d => simp

theorem isProtected_of_scope (hbackup : isSeedBackup host e = true)
    (h : seedBackupScope e = some seedV2BrowserDTag) : isProtectedSeedEvent host e = true := by
  have hnot : ¬ isChamaSeedEvent host e = true := by
    rw [isChamaSeedEvent_iff hone hbackup, h]
    decide
  exact (Bool.or_eq_true_iff.mp hbackup).resolve_left hnot

end Scopes

/-! ### A verdict and the restore order -/

section Verdicts

variable {localEvent : RawEvent} {seed : List String} {mayPrompt : Bool} {events : List RawEvent}
  {newer : Option RawEvent}

theorem not_retired_of_checkRetired {seen : List String} {l : List RawEvent}
    (hsigned : ∀ e ∈ l, host.verifySignature e = true)
    (h : checkRetired host mayPrompt seen l = none) :
    ∀ e ∈ l, e.id ∈ seen ∨ isRetiredSeed host e = false := by
  induction l generalizing seen with
  | nil => exact fun e he => absurd he List.not_mem_nil
  | cons first rest ih =>
    have hrest := fun e he => hsigned e (List.mem_cons_of_mem first he)
    unfold checkRetired at h
    split_ifs at h with hseen _ hretired
    · intro e he
      rcases List.mem_cons.mp he with rfl | he
      · exact Or.inl hseen
      · exact ih hrest h e he
    · have hopen : isRetiredSeed host first = false := Bool.eq_false_of_not_eq_true hretired
      intro e he
      rcases List.mem_cons.mp he with rfl | he
      · exact Or.inr hopen
      · rcases ih hrest h e he with hid | hnot
        · rcases List.mem_cons.mp hid with hid | hid
          · -- One id is that of one event.
            obtain rfl := host.verify_inj e first (hsigned e (List.mem_cons_of_mem first he))
              (hsigned first List.mem_cons_self) hid
            exact Or.inr hopen
          · exact Or.inl hid
        · exact Or.inr hnot

theorem checkRetired_ne_ours {seen : List String} {l : List RawEvent} :
    checkRetired host mayPrompt seen l ≠ some (.ours newer) := by
  induction l generalizing seen with
  | nil => rintro ⟨⟩
  | cons first rest ih =>
    unfold checkRetired
    split_ifs
    · exact ih
    · rintro ⟨⟩
    · rintro ⟨⟩
    · exact ih

/-- The saved copy opens to these words on a device that restores it. -/
def OpensTo (host : SeedHost) (e : RawEvent) (seed : List String) : Prop :=
  ∃ words source, recoverSeedWordsFromEvents host host.nip04Decrypt [e] =
    .ok (some (words, source)) ∧ joinWords words = joinWords seed

theorem firstMnemonic_of_ours (hsigned : ∀ e ∈ events, host.verifySignature e = true)
    (hlocal : host.verifySignature localEvent = true) (hopens : OpensTo host localEvent seed)
    (h : compareCopies host localEvent seed mayPrompt events = .ok (.ours newer)) :
    ∃ words source, firstMnemonic host host.nip04Decrypt events = .ok (some (words, source)) ∧
      joinWords words = joinWords seed := by
  induction events with
  | nil => cases h
  | cons e rest ih =>
    unfold compareCopies at h
    split_ifs at h with hid
    · obtain rfl := host.verify_inj e localEvent (hsigned e List.mem_cons_self) hlocal hid
      obtain ⟨words, source, hfound, hsame⟩ := hopens
      exact ⟨words, source, firstMnemonic_cons_of_opened hfound, hsame⟩
    · cases h
    · cases h
    · cases h
    · split at h
      · cases h
      · rename_i hnone
        obtain ⟨words, source, hfound, hsame⟩ :=
          ih (fun e he => hsigned e (List.mem_cons_of_mem _ he)) h
        have hpass : firstMnemonic host host.nip04Decrypt [e] = .ok none :=
          firstMnemonic_of_none hnone
        exact ⟨words, source, (firstMnemonic_cons_of_passed hpass).trans hfound, hsame⟩
      · rename_i words source hfound
        split_ifs at h with hsame
        · have hfirst : firstMnemonic host host.nip04Decrypt [e] = .ok (some (words, source)) :=
            firstMnemonic_of_none hfound
          exact ⟨words, source, firstMnemonic_cons_of_opened hfirst, hsame⟩
        · cases h

theorem head_of_ours (hsigned : ∀ e ∈ events, host.verifySignature e = true)
    (hprotected : ∀ e ∈ events, isProtectedSeedEvent host e = true)
    (hlocal : host.verifySignature localEvent = true)
    (h : compareCopies host localEvent seed mayPrompt events = .ok (.ours newer)) :
    events.head? = some localEvent := by
  cases events with
  | nil => cases h
  | cons e rest =>
    unfold compareCopies at h
    rw [if_pos (hprotected e List.mem_cons_self)] at h
    split_ifs at h with hid
    · exact congrArg some (host.verify_inj e localEvent (hsigned e List.mem_cons_self) hlocal hid)
    · cases h
    · cases h

/-- The saved copy is the one that the words of the tab came from: a v1 copy that opens to them, or
the browser's protected copy that the tab opened. -/
inductive OwnCopy (host : SeedHost) (seed : List String) (openedFrom : String) (e : RawEvent) : Prop
  | legacy (unprotected : isProtectedSeedEvent host e = false)
      (current : isRetiredSeed host e = false) (opens : OpensTo host e seed)
  | protectedCopy (locked : isProtectedSeedEvent host e = true)
      (browser : isBrowserProtectedSeedEvent e = true) (source : e.id = openedFrom)

/-- A fresh device that reads these events opens the words of the tab, or asks for the code of the
copy that the tab opened. -/
def Restores (host : SeedHost) (seed : List String) (openedFrom : String) (events : List RawEvent) :
    Prop :=
  match restoreOrder host (events.filter (isSeedBackup host)) with
  | .protectedCopy e => e.id = openedFrom
  | .opened words _ => joinWords words = joinWords seed
  | _ => False

theorem restoreOrder_of_browser {e : RawEvent}
    (h : (sortNewest ((events.filter (isProtectedSeedEvent host)).filter
      isBrowserProtectedSeedEvent)).head? = some e) :
    restoreOrder host events = .protectedCopy e := by
  unfold restoreOrder
  dsimp only
  rw [h]

theorem restoreOrder_of_opened {words : List String} {source : RawEvent}
    (hbrowser : (events.filter (isProtectedSeedEvent host)).filter isBrowserProtectedSeedEvent = [])
    (hretired : (legacyCopies host events).find? (isRetiredSeed host) = none)
    (hcopies : legacyCopies host events ≠ [])
    (hopened : recoverSeedWordsFromEvents host host.nip04Decrypt (legacyCopies host events) =
      .ok (some (words, source))) : restoreOrder host events = .opened words source := by
  unfold restoreOrder
  dsimp only
  rw [hbrowser, hretired, hopened]
  simp only [sortNewest, List.insertionSort_nil, List.head?_nil]
  rw [if_neg hcopies]

theorem restores_of_legacy {openedFrom : String}
    (hlocal : isSeedBackup host localEvent = true ∧ host.verifySignature localEvent = true)
    (hevents : ∀ e ∈ events, isSeedBackup host e = true ∧ host.verifySignature e = true)
    (hunprotected : isProtectedSeedEvent host localEvent = false)
    (hcurrent : isRetiredSeed host localEvent = false) (hopens : OpensTo host localEvent seed)
    (hone : HasOneScope localEvent) (hscopes : ∀ e ∈ events, HasOneScope e)
    (hverdict : verdict host localEvent seed mayPrompt events = .ok (.ours newer)) :
    Restores host seed openedFrom events := by
  have hchama : isChamaSeedEvent host localEvent = true :=
    (Bool.or_eq_true_iff.mp hlocal.1).resolve_right fun hp =>
      Bool.noConfusion (hp.symm.trans hunprotected)
  have hscope := (isChamaSeedEvent_iff hone hlocal.1).mp hchama
  have hcopies : (events.filter fun e => seedBackupScope e = some chamaSeedDTag) =
      events.filter (isChamaSeedEvent host) := by
    refine List.filter_congr fun e he => Bool.eq_iff_iff.mpr ?_
    rw [decide_eq_true_iff, isChamaSeedEvent_iff (hscopes e he) (hevents e he).1]
  have hsigned : ∀ e ∈ sortNewest (events.filter (isChamaSeedEvent host)),
      host.verifySignature e = true := fun e he =>
    (hevents e (List.mem_filter.mp ((List.mem_insertionSort _).mp he)).1).2
  unfold verdict at hverdict
  rw [hunprotected, hscope, hcopies] at hverdict
  simp only [Bool.not_false, Bool.true_and, Bool.false_eq_true, if_false] at hverdict
  split_ifs at hverdict with hbrowser
  · cases hverdict
  · cases hretired : checkRetired host mayPrompt [localEvent.id]
        (events.filter (isChamaSeedEvent host)) with
    | some v =>
      rw [hretired] at hverdict
      obtain rfl := Except.ok.inj hverdict
      exact absurd hretired checkRetired_ne_ours
    | none =>
      rw [hretired] at hverdict
      obtain ⟨words, source, hfirst, hsame⟩ :=
        firstMnemonic_of_ours hsigned hlocal.2 hopens hverdict
      have hnobrowser : ((events.filter (isProtectedSeedEvent host)).filter
          isBrowserProtectedSeedEvent) = [] := by
        refine List.filter_eq_nil_iff.mpr fun e he hp => hbrowser ?_
        exact List.any_eq_true.mpr ⟨e, (List.mem_filter.mp he).1, hp⟩
      have hnoretired : (legacyCopies host events).find? (isRetiredSeed host) = none := by
        refine List.find?_eq_none.mpr fun e he => ?_
        have hmem := (List.mem_insertionSort _).mp he
        have hopen : isRetiredSeed host e = false := by
          rcases not_retired_of_checkRetired (fun e he => (hevents e (List.mem_filter.mp he).1).2)
            hretired e hmem with hid | hnot
          · have hsigned := (hevents e (List.mem_filter.mp hmem).1).2
            obtain rfl := host.verify_inj e localEvent hsigned hlocal.2 (List.mem_singleton.mp hid)
            exact hcurrent
          · exact hnot
        rw [hopen]
        exact Bool.false_ne_true
      have hcopy : legacyCopies host events ≠ [] := by
        intro hnil
        unfold legacyCopies at hnil
        rw [hnil] at hfirst
        cases hfirst
      have hrecover : recoverSeedWordsFromEvents host host.nip04Decrypt (legacyCopies host events) =
          .ok (some (words, source)) := (recover_sortNewest host _ _).trans hfirst
      unfold Restores
      rw [List.filter_eq_self.mpr fun e he => (hevents e he).1,
        restoreOrder_of_opened hnobrowser hnoretired hcopy hrecover]
      exact hsame

theorem restores_of_protected {openedFrom : String}
    (hlocal : isSeedBackup host localEvent = true ∧ host.verifySignature localEvent = true)
    (hevents : ∀ e ∈ events, isSeedBackup host e = true ∧ host.verifySignature e = true)
    (hlocked : isProtectedSeedEvent host localEvent = true)
    (hbrowser : isBrowserProtectedSeedEvent localEvent = true)
    (hsource : localEvent.id = openedFrom) (hone : HasOneScope localEvent) (hscopes : ∀ e ∈ events, HasOneScope e)
    (hverdict : verdict host localEvent seed mayPrompt events = .ok (.ours newer)) :
    Restores host seed openedFrom events := by
  have hscope := (isBrowserProtected_iff hone).mp hbrowser
  have hcopies : (events.filter fun e => seedBackupScope e = some seedV2BrowserDTag) =
      (events.filter (isProtectedSeedEvent host)).filter isBrowserProtectedSeedEvent := by
    rw [List.filter_filter]
    refine List.filter_congr fun e he => Bool.eq_iff_iff.mpr ?_
    rw [decide_eq_true_iff, Bool.and_eq_true, isBrowserProtected_iff (hscopes e he)]
    exact ⟨fun h => ⟨h, isProtected_of_scope (hscopes e he) (hevents e he).1 h⟩, And.left⟩
  unfold verdict at hverdict
  rw [hlocked, hscope, hcopies] at hverdict
  simp only [Bool.not_true, Bool.false_and, Bool.false_eq_true, if_false, if_true, checkRetired]
    at hverdict
  have hmem : ∀ e ∈ sortNewest ((events.filter (isProtectedSeedEvent host)).filter
      isBrowserProtectedSeedEvent), host.verifySignature e = true ∧
        isProtectedSeedEvent host e = true := by
    intro e he
    have hprotected := List.mem_filter.mp (List.mem_filter.mp ((List.mem_insertionSort _).mp he)).1
    exact ⟨(hevents e hprotected.1).2, hprotected.2⟩
  have hhead := head_of_ours (fun e he => (hmem e he).1) (fun e he => (hmem e he).2) hlocal.2
    hverdict
  unfold Restores
  rw [List.filter_eq_self.mpr fun e he => (hevents e he).1, restoreOrder_of_browser hhead]
  exact hsource

end Verdicts

/-- In every run of the tabs, a confirmed backup restores the words of the tab that confirmed it, or
asks for the code of the copy that it opened: as long as the saved copy that the check started from
was still the tab's own, and no copy that was read has a second `d` tag. -/
theorem confirmed_restores {ι : Type} [DecidableEq ι]
    {cfg : Config (seedPlatform host) ι SeedResult}
    (h : Reachable (Config.exec (SeedTask.run host))
      (Idle fun w : SeedWorld => w.republished = []) cfg)
    {i : ι} {seed : List String} {openedFrom : String} {localEvent : RawEvent}
    {events : List RawEvent}
    (hslot : cfg.slots i = some (.ret (.confirmed seed openedFrom localEvent events)))
    (hown : OwnCopy host seed openedFrom localEvent)
    (hscopes : ∀ e ∈ localEvent :: events, HasOneScope e) :
    Restores host seed openedFrom events := by
  obtain ⟨hlocal, hevents, mayPrompt, newer, hverdict⟩ := (grounded_of_reachable h).2 i _ hslot
  have hone := hscopes localEvent List.mem_cons_self
  have hrest : ∀ e ∈ events, HasOneScope e := fun e he => hscopes e (List.mem_cons_of_mem _ he)
  cases hown with
  | legacy hunprotected hcurrent hopens =>
    exact restores_of_legacy hlocal hevents hunprotected hcurrent hopens hone hrest hverdict
  | protectedCopy hlocked hbrowser hsource =>
    exact restores_of_protected hlocal hevents hlocked hbrowser hsource hone hrest hverdict

/-! ### Sample runs -/

def sampleCopy : RawEvent := sampleSeedEvent "a a a a a a a a a a a a"
@[inherit_doc sampleCopy]
def sampleNewerCopy : RawEvent := sampleSeedEvent "bb b b b b b b b b b b b"

def sampleRetirement : RawEvent := sampleSeedEvent "retired"

def steps {ι : Type} (i : ι) (choices : List SeedChoice) :
    List (Event (seedPlatform sampleSeedHost) ι SeedTask) :=
  choices.map fun c => .step i c

def restoring : List (Event (seedPlatform sampleSeedHost) Unit SeedTask) :=
  [.start () (.seed (.getOrCreate 0 {}))] ++
    steps () [.quiet, .reads [0], .quiet, .quiet, .quiet, .quiet]

def republishing (positions : List ℕ) : List (Event (seedPlatform sampleSeedHost) Unit SeedTask) :=
  [.start () (.republish 0)] ++ steps () [.quiet, .reads positions, .answers true, .quiet,
    .ciphers sampleCopy.id, .signs sampleCopy, .quiet, .stores]

def restoredWords (backups : List RawEvent) : Option String :=
  match restoreOrder sampleSeedHost (backups.filter (isSeedBackup sampleSeedHost)) with
  | .opened words _ => some (joinWords words)
  | _ => none

/-- The tab writes its words over a newer copy of other words. -/
theorem republish_displaces : ∃ (cfg : Config (seedPlatform sampleSeedHost) Unit SeedResult)
    (e : RawEvent) (backups : List RawEvent) (seed : List String),
    Reachable (Config.exec (SeedTask.run sampleSeedHost))
      (Idle fun w : SeedWorld => w.republished = []) cfg ∧
    (e, backups, seed) ∈ cfg.world.republished ∧
    ¬ ∃ words source,
      restoreOrder sampleSeedHost (backups.filter (isSeedBackup sampleSeedHost)) =
        .opened words source ∧
      sampleSeedHost.nip44Decrypt e.content = .opens (joinWords words) := by
  have hrun : ∃ cfg : Config (seedPlatform sampleSeedHost) Unit SeedResult,
      Reachable (Config.exec (SeedTask.run sampleSeedHost))
        (Idle fun w : SeedWorld => w.republished = []) cfg ∧
      (cfg.world.republished.any fun entry =>
        decide (restoredWords entry.2.1 ≠ some entry.1.content)) = true :=
    Run.exists_of_checked ⟨{ held := [sampleCopy] }, rfl, rfl⟩ (fun _ _ => true)
      (fun _ _ _ => trivial)
      (restoring ++ [.drift (.appears sampleNewerCopy)] ++ republishing [0, 1])
      (by decide +kernel)
  obtain ⟨cfg, hrun, htest⟩ := hrun
  obtain ⟨⟨e, backups, seed⟩, hmem, hother⟩ := List.any_eq_true.mp htest
  refine ⟨cfg, e, backups, seed, hrun, hmem, ?_⟩
  rintro ⟨words, source, hopened, hopens⟩
  refine of_decide_eq_true hother ?_
  unfold restoredWords
  rw [hopened]
  exact congrArg some (Decryption.opens.inj hopens).symm

/-- Over its own copy the tab writes the words again. -/
theorem republish_restores_sample :
    ∃ (cfg : Config (seedPlatform sampleSeedHost) Unit SeedResult) (e : RawEvent)
      (backups : List RawEvent) (seed : List String),
      (e, backups, seed) ∈ cfg.world.republished ∧ ∃ words source,
        restoreOrder sampleSeedHost (backups.filter (isSeedBackup sampleSeedHost)) =
          .opened words source ∧
        sampleSeedHost.nip44Decrypt e.content = .opens (joinWords words) := by
  have hrun : ∃ cfg : Config (seedPlatform sampleSeedHost) Unit SeedResult,
      Reachable (Config.exec (SeedTask.run sampleSeedHost))
        (Idle fun w : SeedWorld => w.republished = []) cfg ∧
      (cfg.world.republished.any fun entry =>
        (recoverSeedWordsFromEvents sampleSeedHost none
          (legacyCopies sampleSeedHost entry.2.1)).toOption.any fun found =>
            found.any fun opened => joinWords opened.1 = joinWords entry.2.2) = true :=
    Run.exists_of_checked ⟨{ held := [sampleCopy] }, rfl, rfl⟩ (fun _ _ => true)
      (fun _ _ _ => trivial) (restoring ++ republishing [0]) (by decide +kernel)
  obtain ⟨cfg, hrun, htest⟩ := hrun
  obtain ⟨⟨e, backups, seed⟩, hmem, hwords⟩ := List.any_eq_true.mp htest
  refine ⟨cfg, e, backups, seed, hmem, (republish_restores hrun hmem).mpr ?_⟩
  obtain ⟨found, hfound, hwords⟩ := exists_ok_of_any hwords
  obtain ⟨⟨words, source⟩, rfl, hsame⟩ := (Option.any_eq_true _ _).mp hwords
  exact ⟨words, source, hfound, of_decide_eq_true hsame⟩

def confirms {ι : Type} (cfg : Config (seedPlatform sampleSeedHost) ι SeedResult) (i : ι)
    (test : List String → RawEvent → List RawEvent → Bool) : Bool :=
  match cfg.slots i with
  | some (.ret (.confirmed seed _ localEvent events)) => test seed localEvent events
  | _ => false

theorem exists_of_confirms {ι : Type} {cfg : Config (seedPlatform sampleSeedHost) ι SeedResult}
    {i : ι} {test : List String → RawEvent → List RawEvent → Bool}
    (h : confirms cfg i test = true) : ∃ seed openedFrom localEvent events,
      cfg.slots i = some (.ret (.confirmed seed openedFrom localEvent events)) ∧
        test seed localEvent events = true := by
  unfold confirms at h
  split at h
  · rename_i seed openedFrom localEvent events hslot
    exact ⟨seed, openedFrom, localEvent, events, hslot, h⟩
  · cases h

/-- Two tabs open; one restores the seed, the other comes to read a retirement and saves it in the
place of the backup, and the first confirms its backup. -/
theorem confirmed_retired : ∃ (cfg : Config (seedPlatform sampleSeedHost) Bool SeedResult)
    (i : Bool) (seed : List String) (openedFrom : String) (localEvent : RawEvent)
    (events : List RawEvent),
    Reachable (Config.exec (SeedTask.run sampleSeedHost))
      (Idle fun w : SeedWorld => w.republished = []) cfg ∧
    cfg.slots i = some (.ret (.confirmed seed openedFrom localEvent events)) ∧
    ¬ Restores sampleSeedHost seed openedFrom events := by
  have hrun : ∃ cfg : Config (seedPlatform sampleSeedHost) Bool SeedResult,
      Reachable (Config.exec (SeedTask.run sampleSeedHost))
        (Idle fun w : SeedWorld => w.republished = []) cfg ∧
      confirms cfg false (fun _ _ events =>
        match restoreOrder sampleSeedHost (events.filter (isSeedBackup sampleSeedHost)) with
        | .retired _ => true
        | _ => false) = true :=
    Run.exists_of_checked ⟨{ held := [sampleCopy] }, rfl, rfl⟩ (fun _ _ => true)
      (fun _ _ _ => trivial)
      ([.start true (.seed (.getOrCreate 1 {})), .step true .quiet,
          .start false (.seed (.getOrCreate 0 {}))] ++
        steps false [.quiet, .reads [0], .quiet, .quiet, .quiet, .quiet] ++
        [.drift (.appears sampleRetirement)] ++ steps true [.reads [0, 1], .quiet, .quiet] ++
        [.start false (.confirm 0 true)] ++ steps false [.quiet, .reads [0, 1], .quiet, .quiet])
      (by decide +kernel)
  obtain ⟨cfg, hrun, htest⟩ := hrun
  obtain ⟨seed, openedFrom, localEvent, events, hslot, hretired⟩ := exists_of_confirms htest
  refine ⟨cfg, false, seed, openedFrom, localEvent, events, hrun, hslot, fun hrestores => ?_⟩
  unfold Restores at hrestores
  split at hretired
  · rename_i e heq
    rw [heq] at hrestores
    exact hrestores
  · cases hretired

/-- The tab that restored the seed confirms its backup. -/
theorem confirmed_restores_sample :
    ∃ (cfg : Config (seedPlatform sampleSeedHost) Unit SeedResult) (seed : List String)
      (openedFrom : String) (localEvent : RawEvent) (events : List RawEvent),
      cfg.slots () = some (.ret (.confirmed seed openedFrom localEvent events)) ∧
      Restores sampleSeedHost seed openedFrom events := by
  have hrun : ∃ cfg : Config (seedPlatform sampleSeedHost) Unit SeedResult,
      Reachable (Config.exec (SeedTask.run sampleSeedHost))
        (Idle fun w : SeedWorld => w.republished = []) cfg ∧
      confirms cfg () (fun seed localEvent events =>
        !isProtectedSeedEvent sampleSeedHost localEvent &&
        !isRetiredSeed sampleSeedHost localEvent &&
        ((recoverSeedWordsFromEvents sampleSeedHost none [localEvent]).toOption.any fun found =>
          found.any fun opened => joinWords opened.1 = joinWords seed) &&
        (localEvent :: events).all fun e =>
          (e.event.tags.filter fun tag => tag.head? = some "d").length ≤ 1) = true :=
    Run.exists_of_checked ⟨{ held := [sampleCopy] }, rfl, rfl⟩ (fun _ _ => true)
      (fun _ _ _ => trivial)
      (restoring ++ [.start () (.confirm 0 true)] ++ steps () [.quiet, .reads [0]])
      (by decide +kernel)
  obtain ⟨cfg, hrun, htest⟩ := hrun
  obtain ⟨seed, openedFrom, localEvent, events, hslot, hchecks⟩ := exists_of_confirms htest
  simp only [Bool.and_eq_true, Bool.not_eq_true', List.all_eq_true, decide_eq_true_eq] at hchecks
  obtain ⟨⟨⟨hunprotected, hcurrent⟩, hwords⟩, hscopes⟩ := hchecks
  have hopens : OpensTo sampleSeedHost localEvent seed := by
    obtain ⟨found, hfound, hwords⟩ := exists_ok_of_any hwords
    obtain ⟨⟨words, source⟩, rfl, hsame⟩ := (Option.any_eq_true _ _).mp hwords
    exact ⟨words, source, hfound, of_decide_eq_true hsame⟩
  exact ⟨cfg, seed, openedFrom, localEvent, events, hslot,
    confirmed_restores hrun hslot (.legacy hunprotected hcurrent hopens) hscopes⟩

end Seed

end ChamaEscrow
