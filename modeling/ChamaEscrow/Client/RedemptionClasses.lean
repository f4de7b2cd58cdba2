import ChamaEscrow.Client.RedemptionDrain

/-!
# The classes of a pending redemption

Which card of the wallet an entry of the stash belongs to (`pending-redemptions.ts`): it is still
retried, it is stranded, or one of its marks sets it aside.

* `redemption_classes`: what is retried is in no other class, what is stranded is neither archived
  nor dead, and no entry of a positive amount is left out.
* `dead_and_archived`: the marks come together, and an entry of no amount is in no class.
-/

namespace ChamaEscrow

open Js Library

/-! ### The listing functions -/

/-- Whether an error and its time were noted. -/
def isPoisoned (entry : PendingRedemption) : Bool :=
  entry.lastError.any (· ≠ "") && isSet entry.poisonedAt

def isRetryingAutomatically (entry : PendingRedemption) : Bool :=
  if entry.escrowId = legacyManualEcashExportId then false
  else if isSet entry.resolvedAt || isSet entry.creditedAt then false
  else if entry.probeVerdict = some .dead ∨ entry.probeVerdict = some .consumedUncredited then false
  else if entry.unresolvedCredit || isConsumedCreditUnconfirmed entry then false
  else if isPoisoned entry then false
  else entry.attempts < maxDrainAttempts && 0 < entry.amountMsats

/-- Why automatic retry can no longer help an entry. -/
inductive StrandedReason
  | unresolvedCredit
  | poisoned
  | retriesExhausted
  deriving DecidableEq

def strandedReason (entry : PendingRedemption) : Option StrandedReason :=
  if isSet entry.resolvedAt then none
  else if entry.probeVerdict = some .dead then none
  else if entry.unresolvedCredit || isConsumedCreditUnconfirmed entry then some .unresolvedCredit
  else if isPoisoned entry then some .poisoned
  else if maxDrainAttempts ≤ entry.attempts then some .retriesExhausted
  else none

/-- `listStrandedRedemptions`: the oldest first. -/
def listStrandedRedemptions (f : Faults) (s : Stored Stash) :
    List (PendingRedemption × StrandedReason) :=
  let stranded := (loadStash f s).values.filterMap fun entry =>
    (strandedReason entry).map (entry, ·)
  stranded.insertionSort fun a b => ¬ b.1.createdAt < a.1.createdAt

/-- What the listing functions and the drain tell of an entry. -/
inductive RedemptionClass
  | autoRetry
  | credited
  | archived
  | dead
  | stranded
  | legacy
  deriving DecidableEq

def RedemptionClass.Holds (f : Faults) (s : Stored Stash) (entry : PendingRedemption) :
    RedemptionClass → Prop
  | autoRetry => isRetryingAutomatically entry = true
  | credited => isSet entry.creditedAt = true
  | archived => isSet entry.resolvedAt = true
  | dead => entry.probeVerdict = some .dead
  | stranded => ∃ reason, (entry, reason) ∈ listStrandedRedemptions f s
  | legacy => entry.escrowId = legacyManualEcashExportId

/-! ### What the classes ask of an entry -/

variable {f : Faults} {s : Stored Stash} {entry : PendingRedemption}

theorem isConsumedCreditUnconfirmed_of_consumed
    (h : entry.probeVerdict = some .consumedUncredited) :
    isConsumedCreditUnconfirmed entry = true := by
  unfold isConsumedCreditUnconfirmed
  rw [h]
  rfl

theorem isRetryingAutomatically_iff : isRetryingAutomatically entry = true ↔
    entry.escrowId ≠ legacyManualEcashExportId ∧ isSet entry.resolvedAt = false ∧
      isSet entry.creditedAt = false ∧ entry.probeVerdict ≠ some .dead ∧
      entry.unresolvedCredit = false ∧ isConsumedCreditUnconfirmed entry = false ∧
      isPoisoned entry = false ∧ entry.attempts < maxDrainAttempts ∧ 0 < entry.amountMsats := by
  unfold isRetryingAutomatically
  constructor
  · intro h
    split_ifs at h with hlegacy hmarks hverdict hconsumed hpoisoned
    rw [Bool.or_eq_true, not_or, Bool.not_eq_true, Bool.not_eq_true] at hmarks hconsumed
    rw [not_or] at hverdict
    rw [Bool.and_eq_true, decide_eq_true_iff, decide_eq_true_iff] at h
    exact ⟨hlegacy, hmarks.1, hmarks.2, hverdict.1, hconsumed.1, hconsumed.2,
      Bool.eq_false_iff.mpr hpoisoned, h.1, h.2⟩
  · rintro ⟨hlegacy, hresolved, hcredited, hdead, hopen, hconsumed, hpoisoned, hattempts, hamount⟩
    have hverdict : entry.probeVerdict ≠ some .consumedUncredited := by
      intro h
      rw [isConsumedCreditUnconfirmed_of_consumed h] at hconsumed
      cases hconsumed
    simp [hlegacy, hresolved, hcredited, hdead, hverdict, hopen, hconsumed, hpoisoned, hattempts,
      hamount]

theorem strandedReason_isSome : (strandedReason entry).isSome = true ↔
    isSet entry.resolvedAt = false ∧ entry.probeVerdict ≠ some .dead ∧
      (entry.unresolvedCredit = true ∨ isConsumedCreditUnconfirmed entry = true ∨
        isPoisoned entry = true ∨ maxDrainAttempts ≤ entry.attempts) := by
  unfold strandedReason
  split_ifs with hresolved hdead hconsumed hpoisoned hattempts
  · simp [hresolved]
  · simp [hdead]
  · rw [Bool.or_eq_true] at hconsumed
    simp only [Option.isSome_some, true_iff]
    exact ⟨Bool.eq_false_iff.mpr hresolved, hdead, hconsumed.imp_right Or.inl⟩
  · simp [hresolved, hdead, hpoisoned]
  · simp [hresolved, hdead, hattempts]
  · rw [Bool.or_eq_true, not_or] at hconsumed
    simp [hconsumed, hpoisoned, hattempts]

theorem holds_stranded_iff : RedemptionClass.stranded.Holds f s entry ↔
    entry ∈ (loadStash f s).values ∧ (strandedReason entry).isSome = true := by
  unfold RedemptionClass.Holds listStrandedRedemptions
  simp only [List.mem_insertionSort, List.mem_filterMap, Option.map_eq_some_iff, Prod.mk.injEq]
  constructor
  · rintro ⟨reason, other, hother, reason', hreason, rfl, rfl⟩
    exact ⟨hother, Option.isSome_of_eq_some hreason⟩
  · rintro ⟨hentry, hreason⟩
    obtain ⟨reason, hreason⟩ := Option.isSome_iff_exists.mp hreason
    exact ⟨reason, entry, hentry, reason, hreason, rfl, rfl⟩

theorem passOver_eq_none (h : isRetryingAutomatically entry = true) (summary : DrainSummary) :
    passOver entry summary = none := by
  obtain ⟨hlegacy, -, hcredited, hdead, -, hconsumed, hpoisoned, hattempts, -⟩ :=
    isRetryingAutomatically_iff.mp h
  have hverdict : entry.probeVerdict ≠ some .consumedUncredited := by
    intro h
    rw [isConsumedCreditUnconfirmed_of_consumed h] at hconsumed
    cases hconsumed
  unfold isPoisoned at hpoisoned
  unfold passOver
  simp only [hlegacy, hcredited, hdead, hverdict, hpoisoned, Nat.not_le.mpr hattempts, if_false,
    or_self, Bool.false_eq_true]

theorem passOver_ne_none (h : isSet entry.creditedAt = true ∨ entry.probeVerdict = some .dead ∨
    entry.escrowId = legacyManualEcashExportId) (summary : DrainSummary) :
    passOver entry summary ≠ none := by
  intro hnone
  unfold passOver at hnone
  split_ifs at hnone with hlegacy hcredited hverdict
  rcases h with h | h | h
  · exact hcredited h
  · exact hverdict (Or.inl h)
  · exact hlegacy h

/-! ### The classes of an entry -/

/-- An entry that is retried is in no other class, and the drain attempts it; one that is stranded
is neither archived nor dead; what is credited, dead or of the legacy slot is never attempted; and
an entry of a positive amount is in one of the classes. -/
theorem redemption_classes (f : Faults) (s : Stored Stash)
    (hentry : entry ∈ (loadStash f s).values) :
    (RedemptionClass.autoRetry.Holds f s entry →
      (∀ summary, passOver entry summary = none) ∧
        ∀ c : RedemptionClass, c ≠ .autoRetry → ¬ c.Holds f s entry) ∧
    (RedemptionClass.stranded.Holds f s entry →
      ¬ RedemptionClass.archived.Holds f s entry ∧ ¬ RedemptionClass.dead.Holds f s entry) ∧
    (∀ c : RedemptionClass, c = .credited ∨ c = .dead ∨ c = .legacy → c.Holds f s entry →
      ∀ summary, passOver entry summary ≠ none) ∧
    (0 < entry.amountMsats → ∃ c : RedemptionClass, c.Holds f s entry) := by
  refine ⟨fun hretry => ⟨passOver_eq_none hretry, ?_⟩, ?_, ?_, ?_⟩
  · obtain ⟨hlegacy, hresolved, hcredited, hdead, hopen, hconsumed, hpoisoned, hattempts, -⟩ :=
      isRetryingAutomatically_iff.mp hretry
    rintro (_ | _ | _ | _ | _ | _) hother hholds
    · exact hother rfl
    · exact Bool.eq_false_iff.mp hcredited hholds
    · exact Bool.eq_false_iff.mp hresolved hholds
    · exact hdead hholds
    · obtain ⟨-, -, hreason⟩ := strandedReason_isSome.mp (holds_stranded_iff.mp hholds).2
      rcases hreason with h | h | h | h
      · exact Bool.eq_false_iff.mp hopen h
      · exact Bool.eq_false_iff.mp hconsumed h
      · exact Bool.eq_false_iff.mp hpoisoned h
      · exact Nat.not_le.mpr hattempts h
    · exact hlegacy hholds
  · intro hstranded
    obtain ⟨hresolved, hdead, -⟩ := strandedReason_isSome.mp (holds_stranded_iff.mp hstranded).2
    exact ⟨Bool.eq_false_iff.mp hresolved, hdead⟩
  · rintro c (rfl | rfl | rfl) hholds
    · exact passOver_ne_none (Or.inl hholds)
    · exact passOver_ne_none (Or.inr (Or.inl hholds))
    · exact passOver_ne_none (Or.inr (Or.inr hholds))
  · intro hamount
    by_contra hnone
    push Not at hnone
    have hresolved := Bool.eq_false_iff.mpr (hnone .archived)
    have hnot : (strandedReason entry).isSome ≠ true := fun hreason =>
      hnone .stranded (holds_stranded_iff.mpr ⟨hentry, hreason⟩)
    rw [Ne, strandedReason_isSome] at hnot
    push Not at hnot
    obtain ⟨hopen, hconsumed, hpoisoned, hattempts⟩ := hnot hresolved (hnone .dead)
    exact hnone .autoRetry (isRetryingAutomatically_iff.mpr ⟨hnone .legacy, hresolved,
      Bool.eq_false_iff.mpr (hnone .credited), hnone .dead, Bool.eq_false_iff.mpr hopen,
      Bool.eq_false_iff.mpr hconsumed, Bool.eq_false_iff.mpr hpoisoned, hattempts, hamount⟩)

/-- Notes that were just stashed. -/
def freshEntry : PendingRedemption := restashed 1 ⟨"e", "a", "h", 1000⟩ none

/-- The drain attempts what was just stashed, and no list of stranded notes has it. -/
theorem freshEntry_classes : (∀ summary, passOver freshEntry summary = none) ∧
    ¬ RedemptionClass.stranded.Holds .none (.value (OrderedMap.empty.set "e" freshEntry))
      freshEntry := by
  have hretry : isRetryingAutomatically freshEntry = true := by decide +kernel
  obtain ⟨hattempted, hother⟩ := (redemption_classes .none
    (.value (OrderedMap.empty.set "e" freshEntry)) List.mem_cons_self).1 hretry
  exact ⟨hattempted, hother .stranded (by decide)⟩

/-- Notes that the federation rejects are dead and archived at once, and an entry of no amount is
shown nowhere. -/
theorem dead_and_archived : ∃ cfg : Config drainPlatform Unit DrainSummary,
    Run (Config.exec drain) (Idle fun s => Keyed (stashed s)) (fun _ _ => True) cfg ∧
      (∃ entry ∈ (stashed cfg.world).values,
        RedemptionClass.archived.Holds .none cfg.world entry ∧
          RedemptionClass.dead.Holds .none cfg.world entry) ∧
      ∃ entry ∈ (stashed cfg.world).values,
        ∀ c : RedemptionClass, ¬ c.Holds .none cfg.world entry := by
  have hrun : ∃ cfg, Run (Config.exec drain) (Idle fun s => Keyed (stashed s))
      (fun _ _ => True) cfg ∧
      ((stashed cfg.world).values.any (fun entry => isSet entry.resolvedAt &&
        entry.probeVerdict = some .dead) &&
      (stashed cfg.world).values.any (fun entry => !isRetryingAutomatically entry &&
        !isSet entry.creditedAt && !isSet entry.resolvedAt && entry.probeVerdict ≠ some .dead &&
        (strandedReason entry).isNone && entry.escrowId ≠ legacyManualEcashExportId)) = true :=
    Run.exists_of_checked ⟨.missing, keyed_empty, rfl⟩ (fun _ _ => true) (fun _ _ _ => trivial)
      [sampleNotes "e" "a", sampleCall (.stash 1 ⟨"f", "b", "h", 0⟩),
        sampleCall (.dead 1 "a" "spent")]
      (by decide +kernel)
  obtain ⟨cfg, hrun, htest⟩ := hrun
  rw [Bool.and_eq_true, List.any_eq_true, List.any_eq_true] at htest
  obtain ⟨⟨entry, hentry, hmarks⟩, other, hother, hnone⟩ := htest
  simp only [Bool.and_eq_true, decide_eq_true_iff, Bool.not_eq_true', Option.isNone_iff_eq_none,
    ne_eq] at hmarks hnone
  obtain ⟨⟨⟨⟨⟨hretry, hcredited⟩, hresolved⟩, hdead⟩, hstranded⟩, hlegacy⟩ := hnone
  refine ⟨cfg, hrun, ⟨entry, hentry, hmarks.1, hmarks.2⟩, other, hother, ?_⟩
  rintro (_ | _ | _ | _ | _ | _) hholds
  · exact Bool.eq_false_iff.mp hretry hholds
  · exact Bool.eq_false_iff.mp hcredited hholds
  · exact Bool.eq_false_iff.mp hresolved hholds
  · exact hdead hholds
  · have hsome := (holds_stranded_iff.mp hholds).2
    rw [hstranded] at hsome
    cases hsome
  · exact hlegacy hholds

end ChamaEscrow
