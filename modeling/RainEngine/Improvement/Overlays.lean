import RainEngine.Kernel.Improvement
import RainEngine.Logs.Views

/-
  This file is about the overlays a ledger holds. They can be
  read off its imprints, the outcomes and policy tunings in
  order; the active overlay is the newest applied one that no
  tuning has rolled back.

  Key definitions include:
    * `imprints`
    * `tuningFor`

  Key theorems include:
    * `activePolicyOverlay_imprints`
    * `activePolicyOverlay_eq_some_iff`
    * `rolledBackOverlayIds_mono`
    * `tuningFor_cases`
-/

namespace RainEngine

------------------------------------------------------------
-- Imprints
------------------------------------------------------------

def SessionRecord.isImprint : SessionRecord → Bool
| .outcome _ => true
| .policyTuning _ => true
| _ => false

/- The outcomes and policy tunings of a ledger. -/
def imprints
    (records : List SessionRecord) :
    List SessionRecord :=
  records.filter SessionRecord.isImprint

section Imprints

variable {records more : List SessionRecord}
variable {record : SessionRecord}

theorem imprints_append :
    imprints (records ++ more) =
      imprints records ++ imprints more :=
  List.filter_append _ _

theorem imprints_snoc_of_isImprint
    (hImprint : record.isImprint = true) :
    imprints (records ++ [record]) =
      imprints records ++ [record] :=
  Logs.view_snoc_of_keep hImprint

theorem imprints_snoc_of_not_isImprint
    (hOther : record.isImprint = false) :
    imprints (records ++ [record]) = imprints records :=
  Logs.view_snoc_of_not hOther

theorem mem_imprints_tuning
    {tuning : PolicyTuningRecord} :
    .policyTuning tuning ∈ imprints records ↔
      .policyTuning tuning ∈ records := by
  simp [imprints, SessionRecord.isImprint]

theorem rolledBackOverlayIds_imprints :
    rolledBackOverlayIds (imprints records) =
      rolledBackOverlayIds records := by
  have hIgnores :
      Logs.Ignores SessionRecord.isImprint
        SessionRecord.asPolicyTuning := by
    intro record hOther
    cases record <;> first | rfl | cases hOther
  unfold rolledBackOverlayIds imprints
  rw [Logs.filterMap_view hIgnores]

theorem activePolicyOverlay_imprints :
    activePolicyOverlay (imprints records) =
      activePolicyOverlay records := by
  unfold activePolicyOverlay
  rw [rolledBackOverlayIds_imprints]
  apply Logs.findSomeRev?_view
  intro record hOther
  cases record <;> first | rfl | cases hOther

theorem terminalObservationCount_imprints :
    terminalObservationCount (imprints records) =
      terminalObservationCount records := by
  unfold terminalObservationCount imprints
  rw [List.filter_filter]
  congr 2
  funext record
  cases record <;> rfl

theorem terminalObservationCount_snoc
    {outcome : OutcomeRecord} :
    terminalObservationCount (records ++ [.outcome outcome]) =
      terminalObservationCount records + 1 := by
  unfold terminalObservationCount
  rw [List.filter_append, List.length_append]
  rfl

end Imprints

------------------------------------------------------------
-- The Active Overlay
------------------------------------------------------------

/- The record applies the overlay. -/
def Applies
    (overlay : PolicyOverlay)
    (record : SessionRecord) :
    Prop :=
  ∃ tuning, record = .policyTuning tuning ∧
    tuning.action = .applied ∧
    tuning.overlay = overlay ∧
    overlay.status = .applied

/-
  The newest overlay applied besides one, if no record rolls
  it back.
-/
def overlayBelow
    (records : List SessionRecord)
    (overlayId : String) :
    Option PolicyOverlay :=
  records.findSomeRev? fun record =>
    match record with
    | .policyTuning tuning =>
        if tuning.action = .applied ∧
            tuning.overlay.status = .applied ∧
            tuning.overlay.overlayId ∉
              overlayId :: rolledBackOverlayIds records then
          some tuning.overlay
        else none
    | _ => none

section Active

variable {records more : List SessionRecord}
variable {overlay : PolicyOverlay}

theorem overlayBelow_imprints
    {overlayId : String} :
    overlayBelow (imprints records) overlayId =
      overlayBelow records overlayId := by
  unfold overlayBelow
  rw [rolledBackOverlayIds_imprints]
  apply Logs.findSomeRev?_view
  intro record hOther
  cases record <;> first | rfl | cases hOther

theorem mem_rolledBackOverlayIds
    {overlayId : String} :
    overlayId ∈ rolledBackOverlayIds records ↔
      ∃ tuning, .policyTuning tuning ∈ records ∧
        tuning.action = .rolledBack ∧
        tuning.overlay.overlayId = overlayId := by
  simp only [rolledBackOverlayIds, List.mem_map,
    List.mem_filter, List.mem_filterMap, decide_eq_true_eq]
  constructor
  · rintro ⟨tuning, ⟨⟨record, hMem, hAs⟩, hAction⟩, hId⟩
    cases record with
    | policyTuning found =>
        cases hAs
        exact ⟨tuning, hMem, hAction, hId⟩
    | _ => cases hAs
  · rintro ⟨tuning, hMem, hAction, hId⟩
    exact ⟨tuning, ⟨⟨_, hMem, rfl⟩, hAction⟩, hId⟩

/- What has been rolled back stays so. -/
theorem rolledBackOverlayIds_mono
    {overlayId : String}
    (hMem : overlayId ∈ rolledBackOverlayIds records)
    (hSubset : records ⊆ more) :
    overlayId ∈ rolledBackOverlayIds more := by
  rw [mem_rolledBackOverlayIds] at hMem ⊢
  rcases hMem with ⟨tuning, hRecord, hRest⟩
  exact ⟨tuning, hSubset hRecord, hRest⟩

/- What the reading of the active overlay makes of a record. -/
theorem appliedOverlay_iff
    {rolledBack : List String}
    {record : SessionRecord} :
    (match record with
      | .policyTuning tuning =>
          if tuning.action = .applied ∧
              tuning.overlay.status = .applied ∧
              tuning.overlay.overlayId ∉ rolledBack then
            some tuning.overlay
          else none
      | _ => none) = some overlay ↔
      Applies overlay record ∧
        overlay.overlayId ∉ rolledBack := by
  constructor
  · intro hSome
    split at hSome
    · rename_i tuning
      split at hSome
      · rename_i hApplied
        cases hSome
        exact ⟨⟨tuning, rfl, hApplied.1, rfl, hApplied.2.1⟩,
          hApplied.2.2⟩
      · cases hSome
    · cases hSome
  · rintro ⟨⟨tuning, hRecord, hAction, hOverlay, hStatus⟩,
      hKept⟩
    subst hRecord
    subst hOverlay
    exact if_pos ⟨hAction, hStatus, hKept⟩

/-
  The active overlay is the newest applied one that has not
  been rolled back.
-/
theorem activePolicyOverlay_eq_some_iff :
    activePolicyOverlay records = some overlay ↔
      ∃ before record after,
        records = before ++ record :: after ∧
        Applies overlay record ∧
        overlay.overlayId ∉ rolledBackOverlayIds records ∧
        ∀ later ∈ after, ∀ other, Applies other later →
          other.overlayId ∈ rolledBackOverlayIds records := by
  unfold activePolicyOverlay
  rw [Logs.findSomeRev?_eq_some_iff]
  constructor
  · rintro ⟨before, record, after, hRecords, hRead, hNone⟩
    rcases appliedOverlay_iff.mp hRead with ⟨hApplies, hKept⟩
    refine ⟨before, record, after, hRecords, hApplies, hKept,
      ?_⟩
    intro later hMem other hOther
    by_contra hNot
    have hSome := appliedOverlay_iff.mpr ⟨hOther, hNot⟩
    have hClash : none = some other :=
      (hNone later hMem).symm.trans hSome
    cases hClash
  · rintro ⟨before, record, after, hRecords, hApplies, hKept,
      hLater⟩
    refine ⟨before, record, after, hRecords,
      appliedOverlay_iff.mpr ⟨hApplies, hKept⟩, ?_⟩
    intro later hMem
    rw [Option.eq_none_iff_forall_not_mem]
    intro other hSome
    rcases appliedOverlay_iff.mp hSome with ⟨hOther, hNot⟩
    exact hNot (hLater later hMem other hOther)

/- A record that is no tuning changes nothing. -/
theorem rolledBackOverlayIds_snoc_other
    {record : SessionRecord}
    (hOther : record.asPolicyTuning = none) :
    rolledBackOverlayIds (records ++ [record]) =
      rolledBackOverlayIds records := by
  unfold rolledBackOverlayIds
  rw [List.filterMap_append]
  simp [hOther]

theorem activePolicyOverlay_snoc_other
    {record : SessionRecord}
    (hOther : record.asPolicyTuning = none) :
    activePolicyOverlay (records ++ [record]) =
      activePolicyOverlay records := by
  unfold activePolicyOverlay
  rw [rolledBackOverlayIds_snoc_other hOther,
    Logs.findSomeRev?_snoc]
  cases record <;> first | rfl | cases hOther

theorem overlayBelow_snoc_other
    {record : SessionRecord}
    {overlayId : String}
    (hOther : record.asPolicyTuning = none) :
    overlayBelow (records ++ [record]) overlayId =
      overlayBelow records overlayId := by
  unfold overlayBelow
  rw [rolledBackOverlayIds_snoc_other hOther,
    Logs.findSomeRev?_snoc]
  cases record <;> first | rfl | cases hOther

/- A rolled back overlay is not active. -/
theorem activePolicyOverlay_ne
    (hActive : activePolicyOverlay records = some overlay) :
    overlay.overlayId ∉ rolledBackOverlayIds records := by
  rcases activePolicyOverlay_eq_some_iff.mp hActive with
    ⟨_, _, _, _, _, hKept, _⟩
  exact hKept

/- A rollback puts the overlay below in force. -/
theorem activePolicyOverlay_snoc_rolledBack
    {tuning : PolicyTuningRecord}
    (hAction : tuning.action = .rolledBack) :
    activePolicyOverlay (records ++ [.policyTuning tuning]) =
      overlayBelow records tuning.overlay.overlayId := by
  have hIds :
      rolledBackOverlayIds
          (records ++ [.policyTuning tuning]) =
        rolledBackOverlayIds records ++
          [tuning.overlay.overlayId] := by
    unfold rolledBackOverlayIds
    rw [List.filterMap_append, List.filter_append,
      List.map_append]
    simp [SessionRecord.asPolicyTuning, hAction]
  unfold activePolicyOverlay overlayBelow
  rw [hIds, Logs.findSomeRev?_snoc]
  simp only [hAction, reduceCtorEq, false_and, if_false,
    Option.none_or]
  congr 1
  funext record
  cases record with
  | policyTuning other =>
      exact if_congr (by simp [or_comm]) rfl rfl
  | _ => rfl

/- A new applied overlay is in force. -/
theorem activePolicyOverlay_snoc_applied
    {tuning : PolicyTuningRecord}
    (hAction : tuning.action = .applied)
    (hStatus : tuning.overlay.status = .applied)
    (hNew : tuning.overlay.overlayId ∉
      rolledBackOverlayIds records) :
    activePolicyOverlay (records ++ [.policyTuning tuning]) =
      some tuning.overlay := by
  have hIds :
      rolledBackOverlayIds
          (records ++ [.policyTuning tuning]) =
        rolledBackOverlayIds records := by
    unfold rolledBackOverlayIds
    rw [List.filterMap_append, List.filter_append,
      List.map_append]
    simp [SessionRecord.asPolicyTuning, hAction]
  unfold activePolicyOverlay
  rw [hIds, Logs.findSomeRev?_snoc]
  simp [hAction, hStatus, hNew]

theorem activePolicyOverlay_applied
    (hActive : activePolicyOverlay records = some overlay) :
    ∃ tuning, .policyTuning tuning ∈ records ∧
      tuning.overlay = overlay ∧
      tuning.action = .applied ∧
      overlay.status = .applied := by
  rcases activePolicyOverlay_eq_some_iff.mp hActive with
    ⟨before, record, after, hRecords, hApplies, _, _⟩
  rcases hApplies with
    ⟨tuning, hRecord, hAction, hOverlay, hStatus⟩
  refine ⟨tuning, ?_, hOverlay, hAction, hStatus⟩
  rw [hRecords, ← hRecord]
  exact List.mem_append_right _ List.mem_cons_self

end Active

------------------------------------------------------------
-- The Tuning After An Outcome
------------------------------------------------------------

/- The tuning an outcome leads to, if there is one. -/
def tuningFor
    (snapshot : AgentContextSnapshot)
    (outcome : OutcomeRecord)
    (tuningId overlayId : String) :
    Option PolicyTuningRecord :=
  if snapshot.policy.selfImprovement.enabled = false ∨
      terminalObservationCount snapshot.history <
        snapshot.policy.selfImprovement.minObservationsBeforeTuning
      then none
  else
    match maybeRollbackRegression snapshot outcome tuningId with
    | some rollback => some rollback
    | none =>
        proposePolicyTuning snapshot outcome overlayId tuningId

section Tuning

variable {snapshot : AgentContextSnapshot}
variable {outcome : OutcomeRecord}
variable {tuningId overlayId : String}
variable {tuning : PolicyTuningRecord}

theorem maybeRollbackRegression_eq_some
    (hSome :
      maybeRollbackRegression snapshot outcome tuningId =
        some tuning) :
    ∃ active,
      activePolicyOverlay snapshot.history = some active ∧
        tuning.action = .rolledBack ∧
        tuning.overlay.overlayId = active.overlayId ∧
        tuning.projectedPolicy = snapshot.policy := by
  unfold maybeRollbackRegression at hSome
  split at hSome
  · cases hSome
  · rcases Option.map_eq_some_iff.mp hSome with
      ⟨active, hActive, hTuning⟩
    subst hTuning
    exact ⟨active, hActive, rfl, rfl, rfl⟩

/- With an active overlay a regression is rolled back. -/
theorem maybeRollbackRegression_of_active
    {active : PolicyOverlay}
    (hEnabled :
      snapshot.policy.selfImprovement.rollbackOnRegression =
        true)
    (hRegression : outcome.stopReason.isRegression = true)
    (hActive :
      activePolicyOverlay snapshot.history = some active) :
    ∃ rollback,
      maybeRollbackRegression snapshot outcome tuningId =
        some rollback ∧
      rollback.action = .rolledBack ∧
      rollback.overlay.overlayId = active.overlayId := by
  unfold maybeRollbackRegression
  rw [hEnabled, hRegression, hActive]
  exact ⟨_, rfl, rfl, rfl⟩

/- The percentage a tuning works with. -/
def tuningDelta (policy : EnginePolicy) : F64 :=
  policy.selfImprovement.maxPolicyDeltaPercent.clamp
    (.finite 1) (.finite 100)

/- Each outcome that is answered raises one limit at most. -/
inductive Proposed
    (snapshot : AgentContextSnapshot)
    (outcome : OutcomeRecord) :
    PolicyOverlayPatch → Prop where
  | provider
      (hReason : outcome.stopReason = .providerFailure) :
      Proposed snapshot outcome
        { providerTimeoutMs :=
            some (increaseByPercent
              snapshot.policy.providerTimeoutMs
              (tuningDelta snapshot.policy)) }
  | steps
      (hReason : outcome.stopReason = .maxStepsReached) :
      Proposed snapshot outcome
        { maxSteps :=
            some (increaseByPercent snapshot.policy.maxSteps
              (((tuningDelta snapshot.policy).mul
                (F64.ofNat
                  ((terminalObservationCount
                    snapshot.history).max 1))).min
                (.finite 200))) }
  | deadline
      (hReason : outcome.stopReason = .deadlineExceeded) :
      Proposed snapshot outcome
        { maxExecutionTimeMs :=
            some (increaseByPercent
              snapshot.policy.maxExecutionTimeMs
              (tuningDelta snapshot.policy)) }
  | cost
      (hReason : outcome.stopReason = .policyAborted)
      (hCost : outcome.mentions "cost" = true) :
      Proposed snapshot outcome {}

theorem proposedPatch_cases
    {patch : PolicyOverlayPatch}
    {reason : String}
    (hPatch :
      proposedPatch snapshot outcome = some (patch, reason)) :
    Proposed snapshot outcome patch := by
  unfold proposedPatch at hPatch
  dsimp only at hPatch
  cases hReason : outcome.stopReason with
  | providerFailure =>
      rw [hReason] at hPatch
      dsimp only at hPatch
      split at hPatch
      · cases hPatch
        exact .provider hReason
      · cases hPatch
  | maxStepsReached =>
      rw [hReason] at hPatch
      cases hPatch
      exact .steps hReason
  | deadlineExceeded =>
      rw [hReason] at hPatch
      cases hPatch
      exact .deadline hReason
  | policyAborted =>
      rw [hReason] at hPatch
      dsimp only at hPatch
      split at hPatch
      · rename_i hCost
        cases hPatch
        exact .cost hReason hCost
      · cases hPatch
  | _ =>
      rw [hReason] at hPatch
      cases hPatch

theorem proposePolicyTuning_eq_some
    (hSome :
      proposePolicyTuning snapshot outcome overlayId tuningId =
        some tuning) :
    Proposed snapshot outcome tuning.overlay.patch ∧
      tuning.overlay.overlayId = overlayId ∧
      tuning.action ≠ .rolledBack ∧
      (tuning.action = .applied →
        tuning.overlay.status = .applied ∧
          outcome.mentions "cost" = false ∧
          snapshot.policy.selfImprovement.mode =
            .autoWithGuardrails) ∧
      tuning.projectedPolicy =
        tuning.overlay.applyTo snapshot.policy := by
  unfold proposePolicyTuning at hSome
  rcases Option.map_eq_some_iff.mp hSome with
    ⟨⟨patch, reason⟩, hPatch, hTuning⟩
  subst hTuning
  refine ⟨proposedPatch_cases hPatch, rfl, ?_, ?_, rfl⟩
  · dsimp only
    split
    · simp
    · cases snapshot.policy.selfImprovement.mode <;>
        simp [SelfImprovementMode.tuningAction]
  · dsimp only
    intro hApplied
    split at hApplied
    · cases hApplied
    · rename_i hKept
      rw [if_neg hKept]
      cases hMode : snapshot.policy.selfImprovement.mode <;>
        rw [hMode] at hApplied <;>
        first
          | exact ⟨rfl, by simpa using hKept, rfl⟩
          | cases hApplied

/- A tuning rolls back the active overlay or proposes one. -/
theorem tuningFor_cases
    (hSome :
      tuningFor snapshot outcome tuningId overlayId =
        some tuning) :
    maybeRollbackRegression snapshot outcome tuningId =
        some tuning ∨
      (maybeRollbackRegression snapshot outcome tuningId =
          none ∧
        proposePolicyTuning snapshot outcome overlayId
          tuningId = some tuning) := by
  unfold tuningFor at hSome
  split at hSome
  · cases hSome
  · cases hRollback :
      maybeRollbackRegression snapshot outcome tuningId with
    | some rollback =>
        rw [hRollback] at hSome
        exact .inl hSome
    | none =>
        rw [hRollback] at hSome
        exact .inr ⟨rfl, hSome⟩

end Tuning

end RainEngine
