import RainEngine.Improvement.Rollbacks

/-
  This file compares the policy a tuning record projects with
  the policy of the next advance. A tuning is computed from
  the effective policy of its advance, while one overlay at a
  time is put on the policy of the next request, so the two
  agree only where the overlay in force before makes no
  difference.

  Key definitions include:
    * `Projects`
    * `Undisturbed`
    * `Replaceable`

  Key theorems include:
    * `applyTo_effectivePolicy_iff`
    * `run_projects`
-/

namespace RainEngine

open Effects

------------------------------------------------------------
-- Projected Policies
------------------------------------------------------------

/-
  The next advance with the same request policy is made under
  the policy the record projects.
-/
def Projects
    (t : Advance)
    (tuning : PolicyTuningRecord) :
    Prop :=
  effectivePolicy t.request.policy t.after.ledger =
    tuning.projectedPolicy

/- The record changes the overlay in force. -/
def PolicyTuningRecord.Acts
    (tuning : PolicyTuningRecord) :
    Prop :=
  tuning.action = .applied ∨ tuning.action = .rolledBack

/- The limits a tuning after such an outcome leaves alone. -/
def untunedLimits
    (policy : EnginePolicy) :
    StopReason → List Nat
| .maxStepsReached =>
    [policy.maxExecutionTimeMs, policy.providerTimeoutMs,
      policy.maxToolTimeoutMs, policy.maxParallelSkillCalls]
| .deadlineExceeded =>
    [policy.maxSteps, policy.providerTimeoutMs,
      policy.maxToolTimeoutMs, policy.maxParallelSkillCalls]
| _ =>
    [policy.maxSteps, policy.maxExecutionTimeMs,
      policy.maxToolTimeoutMs, policy.maxParallelSkillCalls]

/-
  The overlay in force when the advance starts, if any, has
  no part in the limits the tuning leaves alone.
-/
def Undisturbed (t : Advance) (reason : StopReason) : Prop :=
  untunedLimits
      (effectivePolicy t.request.policy t.before.ledger)
      reason =
    untunedLimits t.request.policy reason

/-
  The overlay below the active one, if any, makes the same
  policy of the request's.
-/
def Replaceable (t : Advance) : Prop :=
  ∀ active,
    activePolicyOverlay t.before.ledger = some active →
      t.request.policy.withOverlay
          (overlayBelow t.before.ledger active.overlayId) =
        effectivePolicy t.request.policy t.before.ledger

section Projections

variable {t : Advance}
variable {tuning : PolicyTuningRecord}
variable {overlay : PolicyOverlay}
variable {policy : EnginePolicy}
variable {records : List SessionRecord}

/- Only limits differ under an overlay. -/
theorem effectivePolicy_frame :
    effectivePolicy policy records =
      { policy with
        maxSteps :=
          (effectivePolicy policy records).maxSteps
        maxExecutionTimeMs :=
          (effectivePolicy policy records).maxExecutionTimeMs
        providerTimeoutMs :=
          (effectivePolicy policy records).providerTimeoutMs
        maxToolTimeoutMs :=
          (effectivePolicy policy records).maxToolTimeoutMs
        maxParallelSkillCalls :=
          (effectivePolicy policy
            records).maxParallelSkillCalls } := by
  unfold effectivePolicy EnginePolicy.withOverlay
    PolicyOverlay.applyTo
  split
  · split <;> rfl
  · rfl

/-
  The overlay of an outcome makes the same of a request's
  policy and of the effective one when they agree on the
  limits it leaves alone.
-/
theorem applyTo_effectivePolicy_iff
    {snapshot : AgentContextSnapshot}
    {outcome : OutcomeRecord}
    (hStatus : overlay.status = .applied)
    (hPatch : Proposed snapshot outcome overlay.patch)
    (hSafe : outcome.mentions "cost" = false) :
    overlay.applyTo policy =
        overlay.applyTo (effectivePolicy policy records) ↔
      untunedLimits (effectivePolicy policy records)
          outcome.stopReason =
        untunedLimits policy outcome.stopReason := by
  rw [effectivePolicy_frame]
  generalize effectivePolicy policy records = effective
  unfold PolicyOverlay.applyTo
  rw [if_neg (by simp [hStatus]), if_neg (by simp [hStatus])]
  generalize overlay.patch = patch at hPatch
  cases hPatch with
  | provider hReason =>
      simp [hReason, untunedLimits, patched, eq_comm]
  | steps hReason =>
      simp [hReason, untunedLimits, patched, eq_comm]
  | deadline hReason =>
      simp [hReason, untunedLimits, patched, eq_comm]
  | cost hReason hCost =>
      rw [hSafe] at hCost
      cases hCost

------------------------------------------------------------
-- The Tuning Of An Advance
------------------------------------------------------------

/- A new tuning is the last imprint of its advance. -/
inductive LastTuned
    (t : Advance)
    (outcome : OutcomeRecord)
    (tuning : PolicyTuningRecord) :
    Prop where
  | intro {kept : List SessionRecord}
      (hTuned :
        TunedBy (imprintBase t.request t.before) outcome
          tuning t.after)
      (hImprinted : Imprinted loading outcome kept)
      (hLedger :
        imprints t.after.ledger =
          imprints t.before.ledger ++ kept ++
            [.policyTuning tuning])

theorem Advance.lastTuned
    (hRuns : t.Runs loading)
    (hMem : .policyTuning tuning ∈ t.added) :
    ∃ outcome, LastTuned t outcome tuning := by
  rcases Advance.imprintTurn .loading not_loadFails_loading
    hRuns with ⟨added, hAdded, hStep, _⟩
  have hSame := Advance.imprints_added .loading hRuns hAdded
  rw [← mem_imprints_tuning, hSame] at hMem
  have hKept : ∀ {outcome kept},
      Imprinted loading outcome kept →
        .policyTuning tuning ∉ kept := by
    intro outcome kept hImprinted
    cases hImprinted <;> simp
  cases hStep with
  | none => simp at hMem
  | outcome hImprinted => exact (hKept hImprinted hMem).elim
  | @tuned outcome kept other hImprinted hTuned =>
      rcases List.mem_append.mp hMem with hOld | hNew
      · exact (hKept hImprinted hOld).elim
      · rw [List.mem_singleton] at hNew
        cases hNew
        refine ⟨outcome, .intro hTuned hImprinted ?_⟩
        rw [hAdded, List.append_assoc]
        rfl

theorem Imprinted.rolledBackOverlayIds
    {M : Machine Op Answer World}
    {outcome : OutcomeRecord}
    {kept : List SessionRecord}
    (hImprinted : Imprinted M outcome kept) :
    rolledBackOverlayIds (records ++ kept) =
      rolledBackOverlayIds records := by
  cases hImprinted with
  | stored => exact rolledBackOverlayIds_snoc_other rfl
  | lost _ => rw [List.append_nil]

theorem Imprinted.overlayBelow
    {M : Machine Op Answer World}
    {outcome : OutcomeRecord}
    {kept : List SessionRecord}
    {overlayId : String}
    (hImprinted : Imprinted M outcome kept) :
    overlayBelow (records ++ kept) overlayId =
      overlayBelow records overlayId := by
  cases hImprinted with
  | stored => exact overlayBelow_snoc_other rfl
  | lost _ => rw [List.append_nil]

/- The identifier of a new overlay is not rolled back. -/
theorem WellTuned.not_rolledBack
    {uuid : String}
    (hTuned : WellTuned t.before)
    (hNew : uuid ∉ t.before.issued) :
    "overlay-" ++ uuid ∉
      rolledBackOverlayIds (imprints t.before.ledger) := by
  rw [rolledBackOverlayIds_imprints, mem_rolledBackOverlayIds]
  rintro ⟨old, hOld, _, hId⟩
  rcases hTuned.issued old hOld with ⟨uuid', hUuid', hOldId⟩
  rw [hOldId, String.append_right_inj] at hId
  rw [hId] at hUuid'
  exact hNew hUuid'

/- An applied tuning is projected under its condition. -/
theorem LastTuned.applied
    {outcome : OutcomeRecord}
    (hTuned : WellTuned t.before)
    (hLast : LastTuned t outcome tuning)
    (hAction : tuning.action = .applied) :
    Projects t tuning ↔ Undisturbed t outcome.stopReason := by
  rcases hLast with ⟨hBy, hImprinted, hLedger⟩
  rcases hBy with
    ⟨snapshot, tuningId, uuid, hObserves, _, hNew, hTuning⟩
  rcases tuningFor_cases hTuning with
    hRollback | ⟨_, hPropose⟩
  · rcases maybeRollbackRegression_eq_some hRollback with
      ⟨_, _, hOther, _⟩
    rw [hOther] at hAction
    cases hAction
  · rcases proposePolicyTuning_eq_some hPropose with
      ⟨hPatch, hId, _, hApplied, hProjected⟩
    rcases hApplied hAction with ⟨hStatus, hSafe, _⟩
    have hActive :
        activePolicyOverlay t.after.ledger =
          some tuning.overlay := by
      rw [← activePolicyOverlay_imprints, hLedger]
      apply activePolicyOverlay_snoc_applied hAction hStatus
      rw [hImprinted.rolledBackOverlayIds, hId]
      exact hTuned.not_rolledBack hNew
    have hEffective :
        effectivePolicy t.request.policy t.after.ledger =
          tuning.overlay.applyTo t.request.policy := by
      unfold effectivePolicy
      rw [hActive]
      rfl
    unfold Projects Undisturbed
    rw [hEffective, hProjected, hObserves.policy]
    exact applyTo_effectivePolicy_iff hStatus hPatch hSafe

/- A rollback is projected under its condition. -/
theorem LastTuned.rolledBack
    {outcome : OutcomeRecord}
    (hLast : LastTuned t outcome tuning)
    (hAction : tuning.action = .rolledBack) :
    Projects t tuning ↔ Replaceable t := by
  rcases hLast with ⟨hBy, hImprinted, hLedger⟩
  rcases hBy with
    ⟨snapshot, tuningId, uuid, hObserves, _, _, hTuning⟩
  rcases tuningFor_cases hTuning with
    hRollback | ⟨_, hPropose⟩
  · rcases maybeRollbackRegression_eq_some hRollback with
      ⟨active, hActive, _, hId, hProjected⟩
    have hBefore :
        activePolicyOverlay t.before.ledger = some active := by
      rw [hObserves.activePolicyOverlay] at hActive
      exact activePolicyOverlay_imprints.symm.trans hActive
    have hAfter :
        effectivePolicy t.request.policy t.after.ledger =
          t.request.policy.withOverlay
            (overlayBelow t.before.ledger
              active.overlayId) := by
      unfold effectivePolicy
      rw [← activePolicyOverlay_imprints, hLedger,
        activePolicyOverlay_snoc_rolledBack hAction,
        hImprinted.overlayBelow, overlayBelow_imprints, hId]
    unfold Projects Replaceable
    rw [hAfter, hProjected, hObserves.policy]
    constructor
    · intro hSame other hOther
      rw [hBefore] at hOther
      cases hOther
      exact hSame
    · intro hAll
      exact hAll active hBefore
  · rcases proposePolicyTuning_eq_some hPropose with
      ⟨_, _, hOther, _⟩
    exact (hOther hAction).elim

end Projections

------------------------------------------------------------
-- Runs
------------------------------------------------------------

/-
  An applied tuning of a run is projected exactly when the
  overlay in force has no part in the limits it leaves alone,
  and a rollback exactly when the overlay below makes the same
  policy of the request's.
-/
theorem run_projects
    {sessionId : String}
    {run : List Advance}
    {w : World}
    (hRun : Run loading (World.empty sessionId) run w) :
    ∀ t ∈ run, ∀ tuning, .policyTuning tuning ∈ t.added →
      ∃ outcome,
        TunedBy (imprintBase t.request t.before) outcome
            tuning t.after ∧
          (tuning.action = .applied →
            (Projects t tuning ↔
              Undisturbed t outcome.stopReason)) ∧
          (tuning.action = .rolledBack →
            (Projects t tuning ↔ Replaceable t)) := by
  intro t hMem tuning hAdded
  have hTuned : WellTuned t.before :=
    (run_wellTuned .loading not_loadFails_loading hRun).1 t
      hMem
  rcases Advance.lastTuned (hRun.runs t hMem) hAdded with
    ⟨outcome, hLast⟩
  have hBy :
      TunedBy (imprintBase t.request t.before) outcome tuning
        t.after := by
    rcases hLast with ⟨hBy, _, _⟩
    exact hBy
  exact ⟨outcome, hBy, hLast.applied hTuned, hLast.rolledBack⟩

------------------------------------------------------------
-- A Tuning And A Rollback
------------------------------------------------------------

namespace Sample

/- The advance records a tuning that passes a test. -/
def tunes
    (test : PolicyTuningRecord → Bool)
    (t : Advance) :
    Bool :=
  (t.added.filterMap SessionRecord.asPolicyTuning).any test

theorem exists_tuning
    {turns : List (Script × AdvanceRequest)}
    {test : Advance → PolicyTuningRecord → Bool}
    (hAny :
      (advancesOfTurns turns).any
        (fun t => tunes (test t) t) = true) :
    ∃ t ∈ advancesOfTurns turns, ∃ tuning,
      .policyTuning tuning ∈ t.added ∧
        test t tuning = true := by
  rcases List.any_eq_true.mp hAny with ⟨t, hMem, hTunes⟩
  rcases List.any_eq_true.mp hTunes with
    ⟨tuning, hTuning, hTest⟩
  rcases List.mem_filterMap.mp hTuning with
    ⟨record, hRecord, hAs⟩
  cases record with
  | policyTuning found =>
      cases hAs
      exact ⟨t, hMem, tuning, hRecord, hTest⟩
  | _ => cases hAs

/- An applied tuning while no overlay was in force. -/
def firstApplied
    (t : Advance)
    (tuning : PolicyTuningRecord) :
    Bool :=
  decide (tuning.action = .applied) &&
    (activePolicyOverlay t.before.ledger).isNone

/- A rollback that is not projected. -/
def misprojected
    (t : Advance)
    (tuning : PolicyTuningRecord) :
    Bool :=
  decide (tuning.action = .rolledBack) &&
    decide (effectivePolicy t.request.policy t.after.ledger ≠
      tuning.projectedPolicy)

theorem regressing_run :
    Run loading (World.empty "session")
      (advancesOfTurns regressingTurns)
      (Script.session engine regressingTurns
        (World.empty "session")) :=
  (Script.session_run engine regressingTurns
    (World.empty "session")).loads

end Sample

set_option maxRecDepth 100000 in
/- The first overlay of a session is projected. -/
theorem run_projects_first :
    ∃ t ∈ Sample.advancesOfTurns Sample.regressingTurns,
      ∃ tuning, .policyTuning tuning ∈ t.added ∧
        tuning.action = .applied ∧ Projects t tuning := by
  have hAny :
      (Sample.advancesOfTurns Sample.regressingTurns).any
        (fun t => Sample.tunes (Sample.firstApplied t) t) =
          true := by
    decide +kernel
  rcases Sample.exists_tuning hAny with
    ⟨t, hMem, tuning, hAdded, hTest⟩
  simp only [Sample.firstApplied, Bool.and_eq_true,
    decide_eq_true_eq, Option.isNone_iff_eq_none] at hTest
  rcases run_projects Sample.regressing_run t hMem tuning
    hAdded with ⟨outcome, _, hApplied, _⟩
  refine ⟨t, hMem, tuning, hAdded, hTest.1,
    (hApplied hTest.1).mpr ?_⟩
  unfold Undisturbed effectivePolicy
  rw [hTest.2]
  rfl

set_option maxRecDepth 100000 in
/-
  The record that rolls an overlay back projects the policy
  with that overlay.
-/
theorem rollback_misprojected :
    ¬(∀ sessionId run w,
      Run loading (World.empty sessionId) run w →
        ∀ t ∈ run, ∀ tuning,
          .policyTuning tuning ∈ t.added → tuning.Acts →
            Projects t tuning) := by
  intro hAll
  have hAny :
      (Sample.advancesOfTurns Sample.regressingTurns).any
        (fun t => Sample.tunes (Sample.misprojected t) t) =
          true := by
    decide +kernel
  rcases Sample.exists_tuning hAny with
    ⟨t, hMem, tuning, hAdded, hTest⟩
  simp only [Sample.misprojected, Bool.and_eq_true,
    decide_eq_true_eq] at hTest
  exact hTest.2 (hAll _ _ _ Sample.regressing_run t hMem
    tuning hAdded (.inr hTest.1))

end RainEngine
