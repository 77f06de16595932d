import RainEngine.Improvement.Tunings

/-
  This file proves that a regression ends the overlay it is
  seen under: an advance that reaches an outcome which counts
  against the active overlay rolls it back, and no record
  appended later brings it back.

  Key definitions include:
    * `NewestKept`
    * `Regresses`

  Key theorems include:
    * `WellTuned.active_iff`
    * `run_rolls_back`
-/

namespace RainEngine

open Effects

------------------------------------------------------------
-- The Overlay In Force
------------------------------------------------------------

/- A tuning of the ledger rolls the overlay back. -/
def RolledBack
    (records : List SessionRecord)
    (overlay : PolicyOverlay) :
    Prop :=
  ∃ tuning, .policyTuning tuning ∈ records ∧
    tuning.action = .rolledBack ∧
    tuning.overlay.overlayId = overlay.overlayId

/-
  The overlay is the most recently applied one of those that
  have never been rolled back.
-/
def NewestKept
    (records : List SessionRecord)
    (overlay : PolicyOverlay) :
    Prop :=
  ∃ before tuning after,
    records = before ++ .policyTuning tuning :: after ∧
      tuning.action = .applied ∧
      tuning.overlay = overlay ∧
      ¬RolledBack records overlay ∧
      ∀ later, .policyTuning later ∈ after →
        later.action = .applied →
          RolledBack records later.overlay

/-
  The advance ends with an outcome that counts against an
  active overlay, under a policy that rolls back and with
  enough outcomes recorded.
-/
structure Regresses
    (t : Advance)
    (outcome : EngineOutcome)
    (overlay : PolicyOverlay) : Prop where
  returned : t.returned = some outcome
  regression : outcome.stopReason.isRegression = true
  active :
    activePolicyOverlay t.before.ledger = some overlay
  enabled : t.request.policy.selfImprovement.enabled = true
  rollback :
    t.request.policy.selfImprovement.rollbackOnRegression =
      true
  enough :
    t.request.policy.selfImprovement.minObservationsBeforeTuning
      ≤ terminalObservationCount t.after.ledger

/- The overlay is not active, whatever is appended later. -/
def EndedBy
    (t : Advance)
    (overlay : PolicyOverlay) :
    Prop :=
  ∀ more other,
    activePolicyOverlay (t.after.ledger ++ more) =
      some other →
        other.overlayId ≠ overlay.overlayId

section Rollbacks

variable {t : Advance}
variable {overlay : PolicyOverlay}
variable {records : List SessionRecord}
variable {w : World}

theorem rolledBack_iff :
    RolledBack records overlay ↔
      overlay.overlayId ∈ rolledBackOverlayIds records :=
  mem_rolledBackOverlayIds.symm

/- Where the applied overlays have that status. -/
theorem WellTuned.active_iff
    (hTuned : WellTuned w) :
    activePolicyOverlay w.ledger = some overlay ↔
      NewestKept w.ledger overlay := by
  rw [activePolicyOverlay_eq_some_iff]
  constructor
  · rintro ⟨before, record, after, hRecords, hApplies, hKept,
      hLater⟩
    rcases hApplies with
      ⟨tuning, hRecord, hAction, hOverlay, _⟩
    subst hRecord
    refine ⟨before, tuning, after, hRecords, hAction,
      hOverlay, fun hRolled => hKept (rolledBack_iff.mp hRolled),
      ?_⟩
    intro later hMem hApplied
    have hInLedger : .policyTuning later ∈ w.ledger := by
      rw [hRecords]
      exact List.mem_append_right _ (List.mem_cons_of_mem _ hMem)
    exact rolledBack_iff.mpr (hLater _ hMem later.overlay
      ⟨later, rfl, hApplied, rfl,
        hTuned.applied later hInLedger hApplied⟩)
  · rintro ⟨before, tuning, after, hRecords, hAction,
      hOverlay, hKept, hLater⟩
    have hInLedger : .policyTuning tuning ∈ w.ledger := by
      rw [hRecords]
      exact List.mem_append_right _ List.mem_cons_self
    refine ⟨before, .policyTuning tuning, after, hRecords,
      ⟨tuning, rfl, hAction, hOverlay, ?_⟩,
      fun hMem => hKept (rolledBack_iff.mpr hMem), ?_⟩
    · rw [← hOverlay]
      exact hTuned.applied tuning hInLedger hAction
    · rintro later hMem other
        ⟨found, hFound, hApplied, hOther, _⟩
      subst hFound
      rw [← hOther]
      exact rolledBack_iff.mp (hLater found hMem hApplied)

------------------------------------------------------------
-- Regressions
------------------------------------------------------------

/- An overlay leaves the self-improvement policy alone. -/
theorem applyTo_selfImprovement
    (policy : EnginePolicy) :
    (overlay.applyTo policy).selfImprovement =
      policy.selfImprovement := by
  unfold PolicyOverlay.applyTo
  split <;> rfl

theorem effectivePolicy_selfImprovement
    (policy : EnginePolicy) :
    (effectivePolicy policy records).selfImprovement =
      policy.selfImprovement := by
  unfold effectivePolicy EnginePolicy.withOverlay
  split
  · exact applyTo_selfImprovement policy
  · rfl

/- A tuning after the outcome is no further observation. -/
theorem terminalObservationCount_tuning
    {tuning : PolicyTuningRecord} :
    terminalObservationCount
        (records ++ [.policyTuning tuning]) =
      terminalObservationCount records := by
  unfold terminalObservationCount
  rw [List.filter_append]
  simp [SessionRecord.isOutcome]

/- The tuning that follows from a regression rolls it back. -/
theorem Regresses.tuningFor
    {outcome : EngineOutcome}
    {record : OutcomeRecord}
    {snapshot : AgentContextSnapshot}
    {tuningId overlayId : String}
    (hRegresses : Regresses t outcome overlay)
    (hOutcome : outcome = .fromRecord record)
    (hObserves :
      Observes (imprintBase t.request t.before) record
        snapshot)
    (hCount :
      terminalObservationCount snapshot.history =
        terminalObservationCount t.after.ledger) :
    ∃ rollback,
      tuningFor snapshot record tuningId overlayId =
          some rollback ∧
        rollback.action = .rolledBack ∧
        rollback.overlay.overlayId = overlay.overlayId := by
  have hPolicy :
      snapshot.policy.selfImprovement =
        t.request.policy.selfImprovement := by
    rw [hObserves.policy]
    exact effectivePolicy_selfImprovement _
  have hActive :
      activePolicyOverlay snapshot.history = some overlay := by
    rw [hObserves.activePolicyOverlay]
    exact activePolicyOverlay_imprints.trans hRegresses.active
  have hReason :
      record.stopReason.isRegression = true := by
    have hRegression := hRegresses.regression
    rw [hOutcome] at hRegression
    exact hRegression
  have hRollbackOn :
      snapshot.policy.selfImprovement.rollbackOnRegression =
        true := by
    rw [hPolicy]
    exact hRegresses.rollback
  have hRolls : ∃ rollback,
      maybeRollbackRegression snapshot record tuningId =
          some rollback ∧
        rollback.action = .rolledBack ∧
        rollback.overlay.overlayId = overlay.overlayId :=
    maybeRollbackRegression_of_active hRollbackOn hReason
      hActive
  rcases hRolls with ⟨rollback, hRollback, hAction, hId⟩
  refine ⟨rollback, ?_, hAction, hId⟩
  unfold RainEngine.tuningFor
  rw [if_neg, hRollback]
  rw [hPolicy, hCount, hRegresses.enabled]
  have hEnough := hRegresses.enough
  simp only [Bool.true_eq_false, false_or, not_lt]
  exact hEnough

/- An advance that ends with a regression rolls it back. -/
theorem Regresses.rolledBack
    {outcome : EngineOutcome}
    (hRuns : t.Runs reliable)
    (hRegresses : Regresses t outcome overlay)
    (hOwn : outcome.idempotentReplay = false) :
    RolledBack t.after.ledger overlay := by
  have hForeign : ¬Foreign outcome := by
    rintro (hReplay | ⟨triggerId, hNothing⟩ | hStorage)
    · rw [hOwn] at hReplay
      cases hReplay
    · have hRegression := hRegresses.regression
      rw [hNothing] at hRegression
      cases hRegression
    · have hRegression := hRegresses.regression
      rw [hStorage] at hRegression
      cases hRegression
  rcases Advance.imprintTurn .reliable not_loadFails_reliable hRuns
    with ⟨added, hAdded, _, hEnd⟩
  rcases Advance.of_returned hRegresses.returned with
    ⟨result, hResult, hOutcome⟩
  rcases hEnd result outcome hResult hOutcome hForeign with
    ⟨record, hRecord, hImproved⟩
  have hKept : ∀ {kept}, Imprinted reliable record kept →
      kept = [.outcome record] := by
    intro kept hImprinted
    cases hImprinted with
    | stored => rfl
    | lost hFails =>
        rcases hFails with ⟨w, hFails⟩
        exact (not_storeFails_reliable w hFails).elim
  have hHistory : ∀ {snapshot},
      Observes (imprintBase t.request t.before) record
        snapshot →
      terminalObservationCount snapshot.history =
        terminalObservationCount
          (imprints t.before.ledger ++
            [.outcome record]) := by
    intro snapshot hObserves
    rw [← terminalObservationCount_imprints,
      hObserves.history]
    rfl
  have hAfter :
      terminalObservationCount t.after.ledger =
        terminalObservationCount (imprints t.after.ledger) :=
    terminalObservationCount_imprints.symm
  cases hImproved with
  | untuned hImprinted hUntuned =>
      rcases hUntuned with
        ⟨snapshot, hObserves, tuningId, overlayId, hNone⟩
      have hCount :
          terminalObservationCount snapshot.history =
            terminalObservationCount t.after.ledger := by
        rw [hHistory hObserves, hAfter, hAdded,
          hKept hImprinted]
        rfl
      rcases hRegresses.tuningFor hRecord hObserves hCount
        with ⟨rollback, hSome, _, _⟩
      rw [hNone] at hSome
      cases hSome
  | @tuned kept tuning hImprinted hTuned =>
      rcases hTuned with
        ⟨snapshot, tuningId, uuid, hObserves, _, _, hTuning⟩
      have hCount :
          terminalObservationCount snapshot.history =
            terminalObservationCount t.after.ledger := by
        rw [hHistory hObserves, hAfter, hAdded,
          hKept hImprinted, ← List.append_assoc,
          terminalObservationCount_tuning]
        rfl
      rcases hRegresses.tuningFor hRecord hObserves hCount
        with ⟨rollback, hSome, hAction, hId⟩
      rw [hTuning] at hSome
      cases hSome
      refine ⟨tuning, ?_, hAction, hId⟩
      rw [← mem_imprints_tuning, hAdded]
      exact List.mem_append_right _
        (List.mem_append_right _ (List.mem_singleton_self _))

theorem Regresses.endedBy
    {outcome : EngineOutcome}
    (hRuns : t.Runs reliable)
    (hRegresses : Regresses t outcome overlay)
    (hOwn : outcome.idempotentReplay = false) :
    EndedBy t overlay := by
  intro more other hActive hSame
  have hRolled := rolledBack_iff.mp
    (hRegresses.rolledBack hRuns hOwn)
  apply activePolicyOverlay_ne hActive
  rw [hSame]
  exact rolledBackOverlayIds_mono hRolled
    (List.subset_append_left _ _)

end Rollbacks

------------------------------------------------------------
-- Runs
------------------------------------------------------------

/-
  In every reachable ledger the active overlay is the newest
  applied one that was never rolled back, and an overlay under
  which an advance ends with a regression of its own is never
  active again.
-/
theorem run_rolls_back
    {sessionId : String}
    {run : List Advance}
    {w : World}
    (hRun : Run reliable (World.empty sessionId) run w) :
    (∀ overlay,
      activePolicyOverlay w.ledger = some overlay ↔
        NewestKept w.ledger overlay) ∧
      ∀ t ∈ run, ∀ outcome overlay,
        Regresses t outcome overlay →
        outcome.idempotentReplay = false →
          EndedBy t overlay := by
  constructor
  · intro overlay
    exact (run_wellTuned .reliable not_loadFails_reliable
      hRun).2.active_iff
  · intro t hMem outcome overlay hRegresses hOwn
    exact hRegresses.endedBy (hRun.runs t hMem) hOwn

------------------------------------------------------------
-- A Rollback And A Replay
------------------------------------------------------------

namespace Sample

/- A message that is not granted a single step. -/
def steplessMessage : ProcessRequest :=
  { message with policy := { EnginePolicy.default with
      maxSteps := 0 } }

/- An approval of a token that was never handed out. -/
def strayApproval : ProcessRequest :=
  { message with
    trigger := .approval "token" .approved .null
    idempotencyKey := some "key" }

/- Two messages raise the step limit, an approval aborts. -/
def regressingTurns : List (Script × AdvanceRequest) :=
  [(callsFirst [], .trigger steplessMessage),
    (callsFirst [], .trigger steplessMessage),
    (callsFirst [], .trigger strayApproval)]

/- An aborted approval is repeated under a raised limit. -/
def replayingTurns : List (Script × AdvanceRequest) :=
  [(callsFirst [], .trigger strayApproval),
    (callsFirst [], .trigger steplessMessage),
    (callsFirst [], .trigger strayApproval)]

/- The advance ends with a regression under an overlay. -/
def regresses (t : Advance) : Bool :=
  let policy := t.request.policy.selfImprovement
  (t.returned.any (·.stopReason.isRegression)) &&
    (activePolicyOverlay t.before.ledger).isSome &&
    policy.enabled && policy.rollbackOnRegression &&
    decide (policy.minObservationsBeforeTuning ≤
      terminalObservationCount t.after.ledger)

theorem regresses_of_test
    {t : Advance}
    (hTest : regresses t = true) :
    ∃ outcome overlay, Regresses t outcome overlay := by
  unfold regresses at hTest
  simp only [Bool.and_eq_true, Option.any_eq_true,
    Option.isSome_iff_exists, decide_eq_true_eq] at hTest
  rcases hTest with
    ⟨⟨⟨⟨⟨outcome, hReturned, hRegression⟩, overlay, hActive⟩,
      hEnabled⟩, hRollback⟩, hEnough⟩
  exact ⟨outcome, overlay, hReturned, hRegression, hActive,
    hEnabled, hRollback, hEnough⟩

/- The advances of a scripted session. -/
def advancesOfTurns
    (turns : List (Script × AdvanceRequest)) :
    List Advance :=
  Script.advances engine turns (World.empty "session")

theorem exists_regresses
    {turns : List (Script × AdvanceRequest)}
    {test : Advance → Bool}
    (hAny :
      (advancesOfTurns turns).any
        (fun t => regresses t && test t) = true) :
    ∃ t ∈ advancesOfTurns turns, test t = true ∧
      ∃ outcome overlay, Regresses t outcome overlay := by
  rcases List.any_eq_true.mp hAny with ⟨t, hMem, hTest⟩
  rw [Bool.and_eq_true] at hTest
  exact ⟨t, hMem, hTest.2, regresses_of_test hTest.1⟩

/- The outcome of the advance is its own. -/
def isOwn (t : Advance) : Bool :=
  t.returned.all (!·.idempotentReplay)

/- The active overlay is the same before and after. -/
def keepsOverlay (t : Advance) : Bool :=
  decide (activePolicyOverlay t.after.ledger =
    activePolicyOverlay t.before.ledger)

end Sample

set_option maxRecDepth 100000 in
/- An aborted approval ends the overlay of two messages. -/
theorem run_rolls_back_stray :
    ∃ t ∈ Sample.advancesOfTurns Sample.regressingTurns,
      ∃ overlay,
        activePolicyOverlay t.before.ledger = some overlay ∧
          EndedBy t overlay := by
  have hRun := Script.session_run Sample.engine
    Sample.regressingTurns (World.empty "session")
  have hAny :
      (Sample.advancesOfTurns Sample.regressingTurns).any
        (fun t => Sample.regresses t && Sample.isOwn t) =
          true := by
    decide +kernel
  rcases Sample.exists_regresses hAny with
    ⟨t, hMem, hOwn, outcome, overlay, hRegresses⟩
  have hReplay : outcome.idempotentReplay = false := by
    unfold Sample.isOwn at hOwn
    rw [hRegresses.returned] at hOwn
    simpa using hOwn
  exact ⟨t, hMem, overlay, hRegresses.active,
    (run_rolls_back hRun).2 t hMem outcome overlay hRegresses
      hReplay⟩

set_option maxRecDepth 100000 in
/-
  A replayed regression is reported while an overlay of a
  later turn is active, and the overlay stays.
-/
theorem replayed_regression_keeps_overlay :
    ¬(∀ sessionId run w,
      Run reliable (World.empty sessionId) run w →
        ∀ t ∈ run, ∀ outcome overlay,
          Regresses t outcome overlay →
            EndedBy t overlay) := by
  intro hAll
  have hRun := Script.session_run Sample.engine
    Sample.replayingTurns (World.empty "session")
  have hAny :
      (Sample.advancesOfTurns Sample.replayingTurns).any
        (fun t => Sample.regresses t && Sample.keepsOverlay t) =
          true := by
    decide +kernel
  rcases Sample.exists_regresses hAny with
    ⟨t, hMem, hKeeps, outcome, overlay, hRegresses⟩
  have hSame :
      activePolicyOverlay t.after.ledger =
        activePolicyOverlay t.before.ledger :=
    of_decide_eq_true hKeeps
  have hEnded := hAll _ _ _ hRun t hMem outcome overlay
    hRegresses
  refine hEnded [] overlay ?_ rfl
  rw [List.append_nil, hSame]
  exact hRegresses.active

end RainEngine
