import RainEngine.Kernel.Tools

/-
  This file defines what the kernel does after an outcome:
  reflection, tool performance and strategy records, and the
  tuning of the policy for later advances.

  Key definitions include:
    * `terminalObservationCount`
    * `maybeRollbackRegression`
    * `proposePolicyTuning`
    * `runSelfImprovement`
-/

namespace RainEngine

open Effects

------------------------------------------------------------
-- Observations
------------------------------------------------------------

def terminalObservationCount
    (records : List SessionRecord) :
    Nat :=
  (records.filter SessionRecord.isOutcome).length

def reflectionObservations
    (rendering : Rendering)
    (snapshot : AgentContextSnapshot)
    (outcome : OutcomeRecord) :
    List String :=
  let results := toolResults snapshot.history
  let failed := results.filter (fun result => !result.isOk)
  ["terminal_stop_reason=" ++ outcome.stopReason.debug,
    "steps_executed=" ++ toString outcome.stepsExecuted,
    "tool_results=" ++ toString results.length,
    "failed_tool_results=" ++ toString failed.length,
    "estimated_session_cost_usd=" ++
      rendering.fixed 6 snapshot.sessionCostUsd]

/- Whether the detail of an outcome mentions a word. -/
def OutcomeRecord.mentions
    (outcome : OutcomeRecord)
    (word : String) :
    Bool :=
  outcome.detail.any (containsText · word)

/- The same test on the lowered detail. -/
def OutcomeRecord.mentionsLower
    (outcome : OutcomeRecord)
    (word : String) :
    Bool :=
  outcome.detail.any fun detail =>
    containsText detail.toLower word

------------------------------------------------------------
-- Rollback
------------------------------------------------------------

/- The stop reasons that count against an overlay. -/
def StopReason.isRegression : StopReason → Bool
| .providerFailure => true
| .deadlineExceeded => true
| .policyAborted => true
| _ => false

def maybeRollbackRegression
    (snapshot : AgentContextSnapshot)
    (outcome : OutcomeRecord)
    (tuningId : String) :
    Option PolicyTuningRecord :=
  if !snapshot.policy.selfImprovement.rollbackOnRegression ||
      !outcome.stopReason.isRegression then
    none
  else
    (activePolicyOverlay snapshot.history).map fun active =>
      { tuningId := tuningId
        overlay :=
          { active with
            status := .rolledBack
            reason := "Regression detected after overlay " ++
              active.overlayId ++
              "; rolling back for future advances." }
        action := .rolledBack
        priorPolicy := snapshot.policy
        projectedPolicy := snapshot.policy }

------------------------------------------------------------
-- Tuning
------------------------------------------------------------

/- The change an outcome calls for, and its reason. -/
def proposedPatch
    (snapshot : AgentContextSnapshot)
    (outcome : OutcomeRecord) :
    Option (PolicyOverlayPatch × String) :=
  let policy := snapshot.policy
  let delta :=
    policy.selfImprovement.maxPolicyDeltaPercent.clamp
      (.finite 1) (.finite 100)
  match outcome.stopReason with
  | .providerFailure =>
      if outcome.mentionsLower "timeout" then
        some
          ({ providerTimeoutMs :=
              some (increaseByPercent
                policy.providerTimeoutMs delta) },
            "Provider timed out; increasing provider " ++
              "timeout within guardrails.")
      else none
  | .maxStepsReached =>
      let multiplier := F64.ofNat
        ((terminalObservationCount snapshot.history).max 1)
      let aggressiveDelta :=
        (delta.mul multiplier).min (.finite 200)
      some
        ({ maxSteps :=
            some (increaseByPercent policy.maxSteps
              aggressiveDelta) },
          "Session hit max steps; increasing future step " ++
            "budget within guardrails.")
  | .deadlineExceeded =>
      some
        ({ maxExecutionTimeMs :=
            some (increaseByPercent
              policy.maxExecutionTimeMs delta) },
          "Execution deadline was reached; increasing " ++
            "future wall-clock budget within guardrails.")
  | .policyAborted =>
      if outcome.mentions "cost" then
        some ({},
          "Cost limit was reached; automatic cost-limit " ++
            "increases are blocked.")
      else none
  | _ => none

/- The status an overlay gets in each mode. -/
def SelfImprovementMode.overlayStatus :
    SelfImprovementMode → PolicyOverlayStatus
| .advisory => .proposed
| .autoWithGuardrails => .applied
| .shadow => .proposed

/- The action recorded in each mode. -/
def SelfImprovementMode.tuningAction :
    SelfImprovementMode → PolicyTuningAction
| .advisory => .proposed
| .autoWithGuardrails => .applied
| .shadow => .proposed

def proposePolicyTuning
    (snapshot : AgentContextSnapshot)
    (outcome : OutcomeRecord)
    (overlayId tuningId : String) :
    Option PolicyTuningRecord :=
  (proposedPatch snapshot outcome).map fun (patch, reason) =>
    let mode := snapshot.policy.selfImprovement.mode
    let rejected := outcome.mentions "cost"
    let overlay : PolicyOverlay :=
      { overlayId := overlayId
        status :=
          if rejected then .rejected else mode.overlayStatus
        reason := reason
        evidenceWindowRecords := snapshot.history.length
        patch := patch
        confidence := .round (74 / 100)
        rollbackCondition :=
          "Rollback if the next terminal outcome " ++
            "regresses to a policy/provider failure." }
    { tuningId := tuningId
      overlay := overlay
      action :=
        if rejected then .rejectedUnsafe
        else mode.tuningAction
      priorPolicy := snapshot.policy
      projectedPolicy := overlay.applyTo snapshot.policy }

------------------------------------------------------------
-- Self-Improvement Records
------------------------------------------------------------

/- Append a record and keep it in the in-memory copy. -/
def appendAndPush
    (context : AgentContext)
    (record : SessionRecord) :
    EngineM AgentContext := do
  appendOrFail record
  pure (context.push record)

/- Record that a skill fails too often. -/
def recordPreference
    (rendering : Rendering)
    (performance : ToolPerformance)
    (context : AgentContext) :
    EngineM AgentContext := do
  let preferenceId ← newUuid
  appendAndPush context
    (.strategyPreference
      { preferenceId := "strategy-" ++ preferenceId
        skillName := some performance.skillName
        preference := "avoid_when_alternatives_exist"
        reason := performance.skillName ++ " failed in " ++
          rendering.fixed 0
            (performance.failureRate.mul (.finite 100)) ++
          "% of recent calls"
        confidence := .round (68 / 100) })

/- Record how each skill has performed. -/
def recordPerformance
    (rendering : Rendering) :
    List ToolPerformance → AgentContext →
      EngineM AgentContext
| [], context => pure context
| performance :: rest, context => do
    let performanceId ← newUuid
    let context ← appendAndPush context
      (.toolPerformance
        { performanceId :=
            "tool-performance-" ++ performanceId
          skillName := performance.skillName
          backendKind := performance.backendKind
          calls := performance.calls
          successes := performance.successes
          failures := performance.failures
          failureRate := performance.failureRate })
    let context ←
      if (F64.finite (1 / 2)).lt performance.failureRate then
        recordPreference rendering performance context
      else pure context
    recordPerformance rendering rest context

/- Record the reflection on an outcome. -/
def recordReflection
    (rendering : Rendering)
    (snapshot : AgentContextSnapshot)
    (outcome : OutcomeRecord)
    (context : AgentContext) :
    EngineM AgentContext := do
  let reflectionId ← newUuid
  appendAndPush context
    (.reflection
      { reflectionId := "reflection-" ++ reflectionId
        triggerId := snapshot.triggerId
        summary := "Observed " ++ outcome.stopReason.debug ++
          " after " ++ toString outcome.stepsExecuted ++
          " step(s); evaluating future policy and strategy."
        observations :=
          reflectionObservations rendering snapshot outcome
        confidence := .round (72 / 100) })

/- Record a tuning and the guardrail that goes with it. -/
def recordTuning
    (tuning : PolicyTuningRecord)
    (context : AgentContext) :
    EngineM AgentContext := do
  let context ← appendAndPush context (.policyTuning tuning)
  let patchId ← newUuid
  appendAndPush context
    (.profilePatch
      { patchId := "profile-patch-" ++ patchId
        description := "No capability or scope expansion " ++
          "was applied automatically."
        patch := .object
          [("guardrail", .string
            "privilege_expansion_requires_approval")]
        requiresApproval := false
        applied := true })

/- Roll an overlay back or tune the policy. -/
def tunePolicy
    (snapshot : AgentContextSnapshot)
    (outcome : OutcomeRecord)
    (context : AgentContext) :
    EngineM AgentContext := do
  let tuningUuid ← newUuid
  let tuningId := "tuning-" ++ tuningUuid
  match maybeRollbackRegression snapshot outcome tuningId with
  | some rollback =>
      appendAndPush context (.policyTuning rollback)
  | none =>
      let overlayUuid ← newUuid
      match proposePolicyTuning snapshot outcome
          ("overlay-" ++ overlayUuid) tuningId with
      | none => pure context
      | some tuning => recordTuning tuning context

/-
  The records written after an outcome; the context comes in
  with the outcome in its copy of the ledger.
-/
def runSelfImprovement
    (engine : AgentEngine)
    (context : AgentContext)
    (outcome : OutcomeRecord) :
    EngineM AgentContext := do
  let snapshot := context.toSnapshot outcome.stepsExecuted
  let policy := snapshot.policy.selfImprovement
  if !policy.enabled then
    pure context
  else
    let context ← recordReflection engine.rendering snapshot
      outcome context
    let context ← recordPerformance engine.rendering
      (summarizeToolPerformance snapshot.history) context
    if terminalObservationCount snapshot.history <
        policy.minObservationsBeforeTuning then
      pure context
    else
      tunePolicy snapshot outcome context

end RainEngine
