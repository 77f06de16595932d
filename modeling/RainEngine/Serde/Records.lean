import RainEngine.Serde.Events
import RainEngine.Kernel.Policy

/-
  This file writes the records of a session ledger as JSON
  and reads them back: actions, tool graphs, policies, and
  every kind of record.

  Key definitions include:
    * `Codec.agentAction`
    * `Codec.toolExecutionGraph`
    * `Codec.enginePolicy`
    * `Codec.sessionRecord`
-/

namespace RainEngine
namespace Codec

------------------------------------------------------------
-- Planned Calls And Actions
------------------------------------------------------------

def retryPolicy : Codec RetryPolicy :=
  struct
    (.field "max_attempts" nat <|
      .field "initial_interval_ms" nat <|
      .field "backoff_multiplier" float <|
      .field "max_interval_ms" nat .nil)
    RetryPolicy.mk
    (fun value =>
      (value.maxAttempts, value.initialIntervalMs,
        value.backoffMultiplier, value.maxIntervalMs, ()))
    (fun _ => rfl) (fun _ => rfl) (by decide)

def toolRetryPolicy : Codec ToolRetryPolicy :=
  struct
    (.field "policy" retryPolicy .nil)
    ToolRetryPolicy.mk
    (fun value => (value.policy, ()))
    (fun _ => rfl) (fun _ => rfl) (by decide)

def plannedSkillCall : Codec PlannedSkillCall :=
  struct
    (.field "call_id" string <|
      .field "name" string <|
      .field "args" value <|
      .defaulted "priority" int 0 <|
      .defaulted "depends_on" (list string) [] <|
      .defaulted "retry_policy" toolRetryPolicy {} <|
      .defaulted "dry_run" bool false .nil)
    PlannedSkillCall.mk
    (fun value =>
      (value.callId, value.name, value.args, value.priority,
        value.dependsOn, value.retryPolicy, value.dryRun, ()))
    (fun _ => rfl) (fun _ => rfl) (by decide)

def humanApprovalRequired :
    Codec (List String × Unit) :=
  object
    (.field "skill_names" (list string) .nil)
    (by decide)

def providerRequested :
    Codec (String × Unit) :=
  object
    (.field "message" string .nil)
    (by decide)

def suspendReasonView : SuspendReason → Variant
| .humanApprovalRequired skillNames =>
    .of "HumanApprovalRequired" humanApprovalRequired
      (skillNames, ())
| .providerRequested message =>
    .of "ProviderRequested" providerRequested (message, ())

def suspendReasonRead
    (parse : ℚ → ℚ)
    (payload : Json) :
    String → Option SuspendReason
| "HumanApprovalRequired" =>
    (humanApprovalRequired.decode parse payload).map fun t =>
      .humanApprovalRequired t.1
| "ProviderRequested" =>
    (providerRequested.decode parse payload).map fun t =>
      .providerRequested t.1
| _ => none

def suspendReason : Codec SuspendReason :=
  tagged suspendReasonView suspendReasonRead (by
    intro parse value
    cases value
    all_goals
      dsimp only [suspendReasonView, suspendReasonRead,
        Variant.of]
      exact map_decode _ (by
        intro one two hSame
        simpa [Prod.ext_iff] using hSame) _)

def continueReasonName : ContinueReason → String
| .toolResultAppended => "ToolResultAppended"
| .modelRequested => "ModelRequested"

def continueReasonOfName : String → Option ContinueReason
| "ToolResultAppended" => some .toolResultAppended
| "ModelRequested" => some .modelRequested
| _ => none

def continueReason : Codec ContinueReason :=
  named continueReasonName continueReasonOfName (by
    intro value
    cases value <;> rfl)

def planAction :
    Codec (String × List String × F64 × Unit) :=
  object
    (.field "summary" string <|
      .field "candidate_actions" (list string) <|
      .field "confidence" float .nil)
    (by decide)

def respondAction :
    Codec (String × Unit) :=
  object
    (.field "content" string .nil)
    (List.pairwise_singleton _ _)

def continueAction :
    Codec (ContinueReason × Unit) :=
  object
    (.field "reason" continueReason .nil)
    (by decide)

def yieldAction :
    Codec (Option String × Unit) :=
  object
    (.optional "reason" string notNull_string .nil)
    (by decide)

def suspendAction :
    Codec (SuspendReason × List PlannedSkillCall ×
      ResumeToken × Unit) :=
  object
    (.field "reason" suspendReason <|
      .field "pending_calls" (list plannedSkillCall) <|
      .field "resume_token" string .nil)
    (by decide)

def delegateAction :
    Codec (DelegationTarget × DelegationTask ×
      CorrelationId × ResumeToken × Unit) :=
  object
    (.field "target" delegationTarget <|
      .field "task" delegationTask <|
      .field "correlation_id" string <|
      .field "resume_token" string .nil)
    (by decide)

def agentActionView : AgentAction → Variant
| .plan summary candidates confidence =>
    .of "Plan" planAction (summary, candidates, confidence, ())
| .respond content =>
    .of "Respond" respondAction (content, ())
| .callSkills record =>
    .of "CallSkills" (list plannedSkillCall) record
| .continueWith reason =>
    .of "Continue" continueAction (reason, ())
| .yieldWith reason =>
    .of "Yield" yieldAction (reason, ())
| .memorySearch query limit =>
    .of "MemorySearch" memorySearched (query, limit, ())
| .memoryArchive content =>
    .of "MemoryArchive" memoryArchived (content, ())
| .suspend reason calls token =>
    .of "Suspend" suspendAction (reason, calls, token, ())
| .delegate target task correlation token =>
    .of "Delegate" delegateAction
      (target, task, correlation, token, ())

def agentActionRead
    (parse : ℚ → ℚ)
    (payload : Json) :
    String → Option AgentAction
| "Plan" =>
    (planAction.decode parse payload).map fun t =>
      .plan t.1 t.2.1 t.2.2.1
| "Respond" =>
    (respondAction.decode parse payload).map fun t =>
      .respond t.1
| "CallSkills" =>
    ((list plannedSkillCall).decode parse payload).map
      .callSkills
| "Continue" =>
    (continueAction.decode parse payload).map fun t =>
      .continueWith t.1
| "Yield" =>
    (yieldAction.decode parse payload).map fun t =>
      .yieldWith t.1
| "MemorySearch" =>
    (memorySearched.decode parse payload).map fun t =>
      .memorySearch t.1 t.2.1
| "MemoryArchive" =>
    (memoryArchived.decode parse payload).map fun t =>
      .memoryArchive t.1
| "Suspend" =>
    (suspendAction.decode parse payload).map fun t =>
      .suspend t.1 t.2.1 t.2.2.1
| "Delegate" =>
    (delegateAction.decode parse payload).map fun t =>
      .delegate t.1 t.2.1 t.2.2.1 t.2.2.2.1
| _ => none

def agentAction : Codec AgentAction :=
  tagged agentActionView agentActionRead (by
    intro parse value
    cases value
    all_goals
      dsimp only [agentActionView, agentActionRead,
        Variant.of]
      exact map_decode _ (by
        intro one two hSame
        simpa [Prod.ext_iff] using hSame) _)

def deliberationOutcomeName : DeliberationOutcome → String
| .needsRefinement => "NeedsRefinement"
| .readyToAct => "ReadyToAct"

def deliberationOutcomeOfName :
    String → Option DeliberationOutcome
| "NeedsRefinement" => some .needsRefinement
| "ReadyToAct" => some .readyToAct
| _ => none

def deliberationOutcome : Codec DeliberationOutcome :=
  named deliberationOutcomeName deliberationOutcomeOfName (by
    intro value
    cases value <;> rfl)

def deliberationRecord : Codec DeliberationRecord :=
  struct
    (.field "deliberation_id" string <|
      .field "trigger_id" string <|
      .field "step" nat <|
      .field "summary" string <|
      .field "candidate_actions" (list string) <|
      .field "confidence" float <|
      .field "outcome" deliberationOutcome .nil)
    DeliberationRecord.mk
    (fun value =>
      (value.deliberationId, value.triggerId, value.step,
        value.summary, value.candidateActions,
        value.confidence, value.outcome, ()))
    (fun _ => rfl) (fun _ => rfl) (by decide)

def executionPlanRecord : Codec ExecutionPlanRecord :=
  struct
    (.field "plan_id" string <|
      .field "objective" string <|
      .field "steps" (list agentAction) <|
      .field "current_step_index" nat <|
      .defaulted "completed_at" timeSet false .nil)
    ExecutionPlanRecord.mk
    (fun value =>
      (value.planId, value.objective, value.steps,
        value.currentStepIndex, value.completedAt, ()))
    (fun _ => rfl) (fun _ => rfl) (by decide)

def modelDecisionRecord : Codec ModelDecisionRecord :=
  struct
    (.field "step" nat <|
      .field "action" agentAction .nil)
    ModelDecisionRecord.mk
    (fun value => (value.step, value.action, ()))
    (fun _ => rfl) (fun _ => rfl) (by decide)

------------------------------------------------------------
-- Tool Graphs
------------------------------------------------------------

def toolDependency : Codec ToolDependency :=
  struct
    (.field "call_id" string .nil)
    ToolDependency.mk
    (fun value => (value.callId, ()))
    (fun _ => rfl) (fun _ => rfl) (by decide)

def toolNode : Codec ToolNode :=
  struct
    (.field "call_id" string <|
      .field "skill_name" string <|
      .field "args" value <|
      .field "priority" int <|
      .field "dependencies" (list toolDependency) <|
      .field "retry_policy" toolRetryPolicy <|
      .field "dry_run" bool <|
      .field "provider_order" nat .nil)
    ToolNode.mk
    (fun value =>
      (value.callId, value.skillName, value.args,
        value.priority, value.dependencies,
        value.retryPolicy, value.dryRun, value.providerOrder,
        ()))
    (fun _ => rfl) (fun _ => rfl) (by decide)

def toolExecutionGraph : Codec ToolExecutionGraph :=
  struct
    (.field "graph_id" string <|
      .field "trigger_id" string <|
      .field "step" nat <|
      .field "nodes" (list toolNode) .nil)
    ToolExecutionGraph.mk
    (fun value =>
      (value.graphId, value.triggerId, value.step,
        value.nodes, ()))
    (fun _ => rfl) (fun _ => rfl) (by decide)

def toolNodeStatusName : ToolNodeStatus → String
| .queued => "Queued"
| .validated => "Validated"
| .started => "Started"
| .succeeded => "Succeeded"
| .failed => "Failed"
| .skipped => "Skipped"
| .timedOut => "TimedOut"

def toolNodeStatusOfName : String → Option ToolNodeStatus
| "Queued" => some .queued
| "Validated" => some .validated
| "Started" => some .started
| "Succeeded" => some .succeeded
| "Failed" => some .failed
| "Skipped" => some .skipped
| "TimedOut" => some .timedOut
| _ => none

def toolNodeStatus : Codec ToolNodeStatus :=
  named toolNodeStatusName toolNodeStatusOfName (by
    intro value
    cases value <;> rfl)

def toolNodeCheckpointRecord : Codec ToolNodeCheckpointRecord :=
  struct
    (.field "checkpoint_id" string <|
      .field "graph_id" string <|
      .field "call_id" string <|
      .field "skill_name" string <|
      .field "step" nat <|
      .field "status" toolNodeStatus <|
      .field "attempt" nat <|
      .optional "detail" string notNull_string .nil)
    ToolNodeCheckpointRecord.mk
    (fun value =>
      (value.checkpointId, value.graphId, value.callId,
        value.skillName, value.step, value.status,
        value.attempt, value.detail, ()))
    (fun _ => rfl) (fun _ => rfl) (by decide)

def skillInputValidationRecord :
    Codec SkillInputValidationRecord :=
  struct
    (.field "validation_id" string <|
      .field "graph_id" string <|
      .field "call_id" string <|
      .field "skill_name" string <|
      .field "valid" bool <|
      .field "errors" (list string) .nil)
    SkillInputValidationRecord.mk
    (fun value =>
      (value.validationId, value.graphId, value.callId,
        value.skillName, value.valid, value.errors, ()))
    (fun _ => rfl) (fun _ => rfl) (by decide)

def skillBackendKindName : SkillBackendKind → String
| .wasm => "wasm"
| .native => "native"

def skillBackendKindOfName : String → Option SkillBackendKind
| "wasm" => some .wasm
| "native" => some .native
| _ => none

def skillBackendKind : Codec SkillBackendKind :=
  named skillBackendKindName skillBackendKindOfName (by
    intro value
    cases value <;> rfl)

def toolCallRecord : Codec ToolCallRecord :=
  struct
    (.field "call_id" string <|
      .field "step" nat <|
      .field "skill_name" string <|
      .field "args" value <|
      .field "backend_kind" skillBackendKind .nil)
    ToolCallRecord.mk
    (fun value =>
      (value.callId, value.step, value.skillName, value.args,
        value.backendKind, ()))
    (fun _ => rfl) (fun _ => rfl) (by decide)

def skillFailureKindName : SkillFailureKind → String
| .permissionDenied => "PermissionDenied"
| .capabilityDenied => "CapabilityDenied"
| .invalidArguments => "InvalidArguments"
| .timeout => "Timeout"
| .memoryLimitExceeded => "MemoryLimitExceeded"
| .trap => "Trap"
| .invalidResponse => "InvalidResponse"
| .internal => "Internal"

def skillFailureKindOfName : String → Option SkillFailureKind
| "PermissionDenied" => some .permissionDenied
| "CapabilityDenied" => some .capabilityDenied
| "InvalidArguments" => some .invalidArguments
| "Timeout" => some .timeout
| "MemoryLimitExceeded" => some .memoryLimitExceeded
| "Trap" => some .trap
| "InvalidResponse" => some .invalidResponse
| "Internal" => some .internal
| _ => none

def skillFailureKind : Codec SkillFailureKind :=
  named skillFailureKindName skillFailureKindOfName (by
    intro value
    cases value <;> rfl)

def skillFailure : Codec SkillFailure :=
  struct
    (.field "kind" skillFailureKind <|
      .field "message" string .nil)
    SkillFailure.mk
    (fun value => (value.kind, value.message, ()))
    (fun _ => rfl) (fun _ => rfl) (by decide)

def toolResultRecord : Codec ToolResultRecord :=
  struct
    (.field "call_id" string <|
      .field "skill_name" string <|
      .field "output" (result skillFailure value) .nil)
    ToolResultRecord.mk
    (fun value =>
      (value.callId, value.skillName, value.output, ()))
    (fun _ => rfl) (fun _ => rfl) (by decide)

------------------------------------------------------------
-- Approvals, Provider Accounting And Outcomes
------------------------------------------------------------

def pendingApprovalRecord : Codec PendingApprovalRecord :=
  struct
    (.field "resume_token" string <|
      .field "trigger_id" string <|
      .field "step" nat <|
      .field "reason" suspendReason <|
      .field "pending_calls" (list plannedSkillCall) .nil)
    PendingApprovalRecord.mk
    (fun value =>
      (value.resumeToken, value.triggerId, value.step,
        value.reason, value.pendingCalls, ()))
    (fun _ => rfl) (fun _ => rfl) (by decide)

def approvalResolutionRecord : Codec ApprovalResolutionRecord :=
  struct
    (.field "resume_token" string <|
      .field "decision" approvalDecision <|
      .field "metadata" value .nil)
    ApprovalResolutionRecord.mk
    (fun value =>
      (value.resumeToken, value.decision, value.metadata, ()))
    (fun _ => rfl) (fun _ => rfl) (by decide)

def coordinationClaimRecord : Codec CoordinationClaimRecord :=
  struct
    (.field "claim_id" string <|
      .field "trigger_key" string .nil)
    CoordinationClaimRecord.mk
    (fun value => (value.claimId, value.triggerKey, ()))
    (fun _ => rfl) (fun _ => rfl) (by decide)

def providerUsageRecord : Codec ProviderUsageRecord :=
  struct
    (.field "provider_name" string <|
      .field "input_tokens" nat <|
      .field "output_tokens" nat <|
      .field "estimated_cost_usd" float <|
      .optional "cached_content_id" string notNull_string .nil)
    ProviderUsageRecord.mk
    (fun value =>
      (value.providerName, value.inputTokens,
        value.outputTokens, value.estimatedCostUsd,
        value.cachedContentId, ()))
    (fun _ => rfl) (fun _ => rfl) (by decide)

def providerCacheRecord : Codec ProviderCacheRecord :=
  struct
    (.field "provider_name" string <|
      .field "cached_content_id" string <|
      .field "token_count" nat .nil)
    ProviderCacheRecord.mk
    (fun value =>
      (value.providerName, value.cachedContentId,
        value.tokenCount, ()))
    (fun _ => rfl) (fun _ => rfl) (by decide)

def stopReasonName : StopReason → String
| .responded => "Responded"
| .yielded => "Yielded"
| .maxStepsReached => "MaxStepsReached"
| .deadlineExceeded => "DeadlineExceeded"
| .cancelled => "Cancelled"
| .providerFailure => "ProviderFailure"
| .storageFailure => "StorageFailure"
| .policyAborted => "PolicyAborted"
| .suspended => "Suspended"
| .delegated => "Delegated"

def stopReasonOfName : String → Option StopReason
| "Responded" => some .responded
| "Yielded" => some .yielded
| "MaxStepsReached" => some .maxStepsReached
| "DeadlineExceeded" => some .deadlineExceeded
| "Cancelled" => some .cancelled
| "ProviderFailure" => some .providerFailure
| "StorageFailure" => some .storageFailure
| "PolicyAborted" => some .policyAborted
| "Suspended" => some .suspended
| "Delegated" => some .delegated
| _ => none

def stopReason : Codec StopReason :=
  named stopReasonName stopReasonOfName (by
    intro value
    cases value <;> rfl)

def outcomeRecord : Codec OutcomeRecord :=
  struct
    (.field "trigger_id" string <|
      .optional "idempotency_key" string notNull_string <|
      .field "stop_reason" stopReason <|
      .optional "response" string notNull_string <|
      .optional "detail" string notNull_string <|
      .field "steps_executed" nat <|
      .optional "resume_token" string notNull_string .nil)
    OutcomeRecord.mk
    (fun value =>
      (value.triggerId, value.idempotencyKey,
        value.stopReason, value.response, value.detail,
        value.stepsExecuted, value.resumeToken, ()))
    (fun _ => rfl) (fun _ => rfl) (by decide)

------------------------------------------------------------
-- Policies And Self-Improvement
------------------------------------------------------------

def selfImprovementModeName : SelfImprovementMode → String
| .advisory => "Advisory"
| .autoWithGuardrails => "AutoWithGuardrails"
| .shadow => "Shadow"

def selfImprovementModeOfName :
    String → Option SelfImprovementMode
| "Advisory" => some .advisory
| "AutoWithGuardrails" => some .autoWithGuardrails
| "Shadow" => some .shadow
| _ => none

def selfImprovementMode : Codec SelfImprovementMode :=
  named selfImprovementModeName selfImprovementModeOfName (by
    intro value
    cases value <;> rfl)

def selfImprovementPolicy : Codec SelfImprovementPolicy :=
  struct
    (.field "enabled" bool <|
      .field "mode" selfImprovementMode <|
      .optional "evaluator_model" string notNull_string <|
      .field "reflection_interval_records" nat <|
      .field "min_observations_before_tuning" nat <|
      .field "max_policy_delta_percent" float <|
      .field "require_approval_for_scope_expansion" bool <|
      .field "rollback_on_regression" bool .nil)
    SelfImprovementPolicy.mk
    (fun value =>
      (value.enabled, value.mode, value.evaluatorModel,
        value.reflectionIntervalRecords,
        value.minObservationsBeforeTuning,
        value.maxPolicyDeltaPercent,
        value.requireApprovalForScopeExpansion,
        value.rollbackOnRegression, ()))
    (fun _ => rfl) (fun _ => rfl) (by decide)

def enginePolicy : Codec EnginePolicy :=
  struct
    (.field "max_steps" nat <|
      .field "max_execution_time_ms" nat <|
      .field "provider_timeout_ms" nat <|
      .field "max_tool_timeout_ms" nat <|
      .field "max_consecutive_tool_failures" nat <|
      .field "cache_threshold_tokens" nat <|
      .field "max_cost_per_session" float <|
      .field "max_parallel_skill_calls" nat <|
      .field "max_inline_attachment_bytes" nat <|
      .field "allow_native_skills" bool <|
      .defaulted "validate_tool_args" bool
        EnginePolicy.default.validateToolArgs <|
      .defaulted "max_ready_tool_nodes" nat
        EnginePolicy.default.maxReadyToolNodes <|
      .defaulted "max_tool_retries_per_step" nat
        EnginePolicy.default.maxToolRetriesPerStep <|
      .defaulted "enable_tool_dry_run" bool false <|
      .defaulted "self_improvement" selfImprovementPolicy
        SelfImprovementPolicy.default .nil)
    EnginePolicy.mk
    (fun value =>
      (value.maxSteps, value.maxExecutionTimeMs,
        value.providerTimeoutMs, value.maxToolTimeoutMs,
        value.maxConsecutiveToolFailures,
        value.cacheThresholdTokens, value.maxCostPerSession,
        value.maxParallelSkillCalls,
        value.maxInlineAttachmentBytes,
        value.allowNativeSkills, value.validateToolArgs,
        value.maxReadyToolNodes, value.maxToolRetriesPerStep,
        value.enableToolDryRun, value.selfImprovement, ()))
    (fun _ => rfl) (fun _ => rfl) (by decide)

def policyOverlayPatch : Codec PolicyOverlayPatch :=
  struct
    (.optional "max_steps" nat notNull_nat <|
      .optional "max_execution_time_ms" nat notNull_nat <|
      .optional "provider_timeout_ms" nat notNull_nat <|
      .optional "max_tool_timeout_ms" nat notNull_nat <|
      .optional "max_parallel_skill_calls" nat notNull_nat .nil)
    PolicyOverlayPatch.mk
    (fun value =>
      (value.maxSteps, value.maxExecutionTimeMs,
        value.providerTimeoutMs, value.maxToolTimeoutMs,
        value.maxParallelSkillCalls, ()))
    (fun _ => rfl) (fun _ => rfl) (by decide)

def policyOverlayStatusName : PolicyOverlayStatus → String
| .proposed => "Proposed"
| .applied => "Applied"
| .rolledBack => "RolledBack"
| .rejected => "Rejected"

def policyOverlayStatusOfName :
    String → Option PolicyOverlayStatus
| "Proposed" => some .proposed
| "Applied" => some .applied
| "RolledBack" => some .rolledBack
| "Rejected" => some .rejected
| _ => none

def policyOverlayStatus : Codec PolicyOverlayStatus :=
  named policyOverlayStatusName policyOverlayStatusOfName (by
    intro value
    cases value <;> rfl)

def policyOverlay : Codec PolicyOverlay :=
  struct
    (.field "overlay_id" string <|
      .field "status" policyOverlayStatus <|
      .field "reason" string <|
      .field "evidence_window_records" nat <|
      .field "patch" policyOverlayPatch <|
      .field "confidence" float <|
      .field "rollback_condition" string .nil)
    PolicyOverlay.mk
    (fun value =>
      (value.overlayId, value.status, value.reason,
        value.evidenceWindowRecords, value.patch,
        value.confidence, value.rollbackCondition, ()))
    (fun _ => rfl) (fun _ => rfl) (by decide)

def policyTuningActionName : PolicyTuningAction → String
| .proposed => "Proposed"
| .applied => "Applied"
| .rolledBack => "RolledBack"
| .rejectedUnsafe => "RejectedUnsafe"

def policyTuningActionOfName :
    String → Option PolicyTuningAction
| "Proposed" => some .proposed
| "Applied" => some .applied
| "RolledBack" => some .rolledBack
| "RejectedUnsafe" => some .rejectedUnsafe
| _ => none

def policyTuningAction : Codec PolicyTuningAction :=
  named policyTuningActionName policyTuningActionOfName (by
    intro value
    cases value <;> rfl)

def policyTuningRecord : Codec PolicyTuningRecord :=
  struct
    (.field "tuning_id" string <|
      .field "overlay" policyOverlay <|
      .field "action" policyTuningAction <|
      .field "prior_policy" enginePolicy <|
      .field "projected_policy" enginePolicy .nil)
    PolicyTuningRecord.mk
    (fun value =>
      (value.tuningId, value.overlay, value.action,
        value.priorPolicy, value.projectedPolicy, ()))
    (fun _ => rfl) (fun _ => rfl) (by decide)

def reflectionRecord : Codec ReflectionRecord :=
  struct
    (.field "reflection_id" string <|
      .field "trigger_id" string <|
      .field "summary" string <|
      .field "observations" (list string) <|
      .field "confidence" float .nil)
    ReflectionRecord.mk
    (fun value =>
      (value.reflectionId, value.triggerId, value.summary,
        value.observations, value.confidence, ()))
    (fun _ => rfl) (fun _ => rfl) (by decide)

def strategyPreferenceRecord : Codec StrategyPreferenceRecord :=
  struct
    (.field "preference_id" string <|
      .optional "skill_name" string notNull_string <|
      .field "preference" string <|
      .field "reason" string <|
      .field "confidence" float .nil)
    StrategyPreferenceRecord.mk
    (fun value =>
      (value.preferenceId, value.skillName, value.preference,
        value.reason, value.confidence, ()))
    (fun _ => rfl) (fun _ => rfl) (by decide)

def toolPerformanceRecord : Codec ToolPerformanceRecord :=
  struct
    (.field "performance_id" string <|
      .field "skill_name" string <|
      .field "backend_kind" string <|
      .field "calls" nat <|
      .field "successes" nat <|
      .field "failures" nat <|
      .field "failure_rate" float .nil)
    ToolPerformanceRecord.mk
    (fun value =>
      (value.performanceId, value.skillName,
        value.backendKind, value.calls, value.successes,
        value.failures, value.failureRate, ()))
    (fun _ => rfl) (fun _ => rfl) (by decide)

def profilePatchRecord : Codec ProfilePatchRecord :=
  struct
    (.field "patch_id" string <|
      .field "description" string <|
      .field "patch" value <|
      .field "requires_approval" bool <|
      .field "applied" bool .nil)
    ProfilePatchRecord.mk
    (fun value =>
      (value.patchId, value.description, value.patch,
        value.requiresApproval, value.applied, ()))
    (fun _ => rfl) (fun _ => rfl) (by decide)

def summaryRecord : Codec SummaryRecord :=
  struct
    (.field "summary_id" string <|
      .field "content" string <|
      .field "original_sequence_range" (pair nat nat) .nil)
    SummaryRecord.mk
    (fun value =>
      (value.summaryId, value.content,
        value.originalSequenceRange, ()))
    (fun _ => rfl) (fun _ => rfl) (by decide)

------------------------------------------------------------
-- Session Records
------------------------------------------------------------

def sessionRecordView : SessionRecord → Variant
| .trigger record =>
    .of "Trigger" triggerRecord record
| .triggerIntent record =>
    .of "TriggerIntent" triggerIntentRecord record
| .kernelEvent record =>
    .of "KernelEvent" kernelEventRecord record
| .modelDecision record =>
    .of "ModelDecision" modelDecisionRecord record
| .deliberation record =>
    .of "Deliberation" deliberationRecord record
| .toolExecutionGraph record =>
    .of "ToolExecutionGraph" toolExecutionGraph record
| .toolNodeCheckpoint record =>
    .of "ToolNodeCheckpoint" toolNodeCheckpointRecord record
| .skillInputValidation record =>
    .of "SkillInputValidation" skillInputValidationRecord record
| .toolCall record =>
    .of "ToolCall" toolCallRecord record
| .toolResult record =>
    .of "ToolResult" toolResultRecord record
| .pendingApproval record =>
    .of "PendingApproval" pendingApprovalRecord record
| .approvalResolution record =>
    .of "ApprovalResolution" approvalResolutionRecord record
| .delegation record =>
    .of "Delegation" delegationRecord record
| .coordinationClaim record =>
    .of "CoordinationClaim" coordinationClaimRecord record
| .providerUsage record =>
    .of "ProviderUsage" providerUsageRecord record
| .providerCache record =>
    .of "ProviderCache" providerCacheRecord record
| .reflection record =>
    .of "Reflection" reflectionRecord record
| .policyTuning record =>
    .of "PolicyTuning" policyTuningRecord record
| .strategyPreference record =>
    .of "StrategyPreference" strategyPreferenceRecord record
| .toolPerformance record =>
    .of "ToolPerformance" toolPerformanceRecord record
| .profilePatch record =>
    .of "ProfilePatch" profilePatchRecord record
| .executionPlan record =>
    .of "ExecutionPlan" executionPlanRecord record
| .summary record =>
    .of "Summary" summaryRecord record
| .outcome record =>
    .of "Outcome" outcomeRecord record

def sessionRecordRead
    (parse : ℚ → ℚ)
    (payload : Json) :
    String → Option SessionRecord
| "Trigger" =>
    (triggerRecord.decode parse payload).map .trigger
| "TriggerIntent" =>
    (triggerIntentRecord.decode parse payload).map
      .triggerIntent
| "KernelEvent" =>
    (kernelEventRecord.decode parse payload).map .kernelEvent
| "ModelDecision" =>
    (modelDecisionRecord.decode parse payload).map
      .modelDecision
| "Deliberation" =>
    (deliberationRecord.decode parse payload).map .deliberation
| "ToolExecutionGraph" =>
    (toolExecutionGraph.decode parse payload).map
      .toolExecutionGraph
| "ToolNodeCheckpoint" =>
    (toolNodeCheckpointRecord.decode parse payload).map
      .toolNodeCheckpoint
| "SkillInputValidation" =>
    (skillInputValidationRecord.decode parse payload).map
      .skillInputValidation
| "ToolCall" =>
    (toolCallRecord.decode parse payload).map .toolCall
| "ToolResult" =>
    (toolResultRecord.decode parse payload).map .toolResult
| "PendingApproval" =>
    (pendingApprovalRecord.decode parse payload).map
      .pendingApproval
| "ApprovalResolution" =>
    (approvalResolutionRecord.decode parse payload).map
      .approvalResolution
| "Delegation" =>
    (delegationRecord.decode parse payload).map .delegation
| "CoordinationClaim" =>
    (coordinationClaimRecord.decode parse payload).map
      .coordinationClaim
| "ProviderUsage" =>
    (providerUsageRecord.decode parse payload).map
      .providerUsage
| "ProviderCache" =>
    (providerCacheRecord.decode parse payload).map
      .providerCache
| "Reflection" =>
    (reflectionRecord.decode parse payload).map .reflection
| "PolicyTuning" =>
    (policyTuningRecord.decode parse payload).map .policyTuning
| "StrategyPreference" =>
    (strategyPreferenceRecord.decode parse payload).map
      .strategyPreference
| "ToolPerformance" =>
    (toolPerformanceRecord.decode parse payload).map
      .toolPerformance
| "ProfilePatch" =>
    (profilePatchRecord.decode parse payload).map .profilePatch
| "ExecutionPlan" =>
    (executionPlanRecord.decode parse payload).map
      .executionPlan
| "Summary" =>
    (summaryRecord.decode parse payload).map .summary
| "Outcome" =>
    (outcomeRecord.decode parse payload).map .outcome
| _ => none

def sessionRecord : Codec SessionRecord :=
  tagged sessionRecordView sessionRecordRead (by
    intro parse value
    cases value
    all_goals
      dsimp only [sessionRecordView, sessionRecordRead,
        Variant.of]
      exact map_decode _ (by
        intro one two hSame
        simpa [Prod.ext_iff] using hSame) _)

end Codec
end RainEngine
