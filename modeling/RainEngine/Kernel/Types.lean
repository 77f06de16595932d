import RainEngine.Kernel.Json

/-
  This file defines the data model of the kernel: triggers,
  kernel events, planned calls, tool graphs, policies, skill
  manifests, and the records of the session ledger.

  Clock readings the kernel only writes down are left out of
  the records; a time stays where the kernel reads it or
  hands it on. Unsigned machine integers are natural numbers.

  Key definitions include:
    * `AgentTrigger`
    * `KernelEvent`
    * `PlannedSkillCall`
    * `AgentAction`
    * `ToolExecutionGraph`
    * `EnginePolicy`
    * `SkillManifest`
    * `SessionRecord`
-/

namespace RainEngine

abbrev SystemTime := Nat
abbrev ResumeToken := String
abbrev CorrelationId := String
abbrev GoalId := String
abbrev TaskId := String
abbrev ArtifactId := String
abbrev ObservationId := String
abbrev WakeId := String

------------------------------------------------------------
-- Triggers
------------------------------------------------------------

structure BlobDescriptor where
  uri : String
  sizeBytes : Nat
deriving DecidableEq

inductive AttachmentContent where
  | inline (data : List UInt8)
  | blob (descriptor : BlobDescriptor)
deriving DecidableEq

structure AttachmentRef where
  attachmentId : String
  mimeType : String
  fileName : Option String
  sizeBytes : Nat
  content : AttachmentContent
deriving DecidableEq

inductive ApprovalDecision where
  | approved
  | rejected
deriving DecidableEq

inductive AgentTrigger where
  | externalEvent (source : String) (payload : Json)
      (attachments : List AttachmentRef)
  | scheduledWake (wakeId : WakeId) (dueAt : SystemTime)
      (reason : String)
  | humanInput (actorId content : String)
      (attachments : List AttachmentRef)
  | systemObservation (source : String) (observation : Json)
      (attachments : List AttachmentRef)
  | webhook (source : String) (payload : Json)
      (attachments : List AttachmentRef)
  | ruleTrigger (ruleId : String) (context : Json)
      (attachments : List AttachmentRef)
  | proactiveHeartbeat (timestamp : Nat)
      (attachments : List AttachmentRef)
  | message (userId content : String)
      (attachments : List AttachmentRef)
  | approval (resumeToken : ResumeToken)
      (decision : ApprovalDecision) (metadata : Json)
  | delegationResult (correlationId : CorrelationId)
      (payload metadata : Json)
deriving Inhabited

structure TriggerRecord where
  triggerId : String
  sessionId : String
  idempotencyKey : Option String
  trigger : AgentTrigger
  intent : Option String

structure TriggerIntentRecord where
  triggerId : String
  intent : String

------------------------------------------------------------
-- Agent State And Kernel Events
------------------------------------------------------------

structure ResourceRef where
  resourceId : String
  resourceType : String
  label : String
  externalRef : Option String
deriving DecidableEq

structure RelationshipEdge where
  fromResourceId : String
  toResourceId : String
  relation : String
  observedAt : SystemTime
deriving DecidableEq

inductive GoalStatus where
  | active
  | blocked
  | completed
  | cancelled
deriving DecidableEq

structure GoalRecord where
  goalId : GoalId
  title : String
  detail : Option String
  status : GoalStatus
  parentGoalId : Option GoalId
deriving DecidableEq

inductive TaskStatus where
  | pending
  | ready
  | running
  | blocked
  | waitingHuman
  | done
  | failed
  | abandoned
deriving DecidableEq

structure TaskRecord where
  taskId : TaskId
  goalId : Option GoalId
  parentTaskId : Option TaskId
  title : String
  detail : Option String
  status : TaskStatus
  assignee : Option String
  blockedBy : List TaskId
deriving DecidableEq

structure ObservationRecord where
  observationId : ObservationId
  source : String
  content : Json
  attachmentIds : List String
  relatedResources : List ResourceRef

structure ArtifactRecord where
  artifactId : ArtifactId
  name : String
  mimeType : String
  descriptor : Option BlobDescriptor
  metadata : Json

structure WakeRequestRecord where
  wakeId : WakeId
  requestedAt : SystemTime
  dueAt : SystemTime
  reason : String
  taskId : Option TaskId
deriving DecidableEq

structure DelegationTarget where
  stream : String
  worker : Option String
deriving DecidableEq

structure DelegationTask where
  taskType : String
  payload : Json

structure DelegationRecord where
  correlationId : CorrelationId
  triggerId : String
  target : DelegationTarget
  task : DelegationTask
  resumeToken : ResumeToken

inductive KernelEvent where
  | goalCreated (goal : GoalRecord)
  | taskPlanned (task : TaskRecord)
  | taskClaimed (taskId : TaskId)
      (assignee : Option String)
  | taskBlocked (taskId : TaskId) (reason : String)
  | taskCompleted (taskId : TaskId)
      (artifactIds : List ArtifactId)
  | taskFailed (taskId : TaskId) (reason : String)
  | taskAbandoned (taskId : TaskId) (reason : String)
  | humanInputRequested (taskId : Option TaskId)
      (prompt : String) (resumeToken : ResumeToken)
  | observationAppended (observation : ObservationRecord)
  | artifactProduced (artifact : ArtifactRecord)
  | wakeRequested (wake : WakeRequestRecord)
  | wakeScheduled (wake : WakeRequestRecord)
  | wakeCompleted (wakeId : WakeId) (reason : String)
  | delegationRequested (record : DelegationRecord)
  | delegationResolved (correlationId : CorrelationId)
      (payload metadata : Json)
  | resourceRegistered (resource : ResourceRef)
  | relationshipObserved (edge : RelationshipEdge)
  | memorySearched (query : String) (limit : Nat)
  | memoryArchived (content : String)

structure KernelEventRecord where
  eventId : String
  event : KernelEvent

------------------------------------------------------------
-- Planned Calls And Actions
------------------------------------------------------------

structure RetryPolicy where
  maxAttempts : Nat
  initialIntervalMs : Nat
  backoffMultiplier : F64
  maxIntervalMs : Nat
deriving DecidableEq

namespace RetryPolicy

def default : RetryPolicy where
  maxAttempts := 3
  initialIntervalMs := 250
  backoffMultiplier := .finite 2
  maxIntervalMs := 10000

end RetryPolicy

structure ToolRetryPolicy where
  policy : RetryPolicy := .default
deriving DecidableEq

structure PlannedSkillCall where
  callId : String
  name : String
  args : Json
  priority : Int := 0
  dependsOn : List String := []
  retryPolicy : ToolRetryPolicy := {}
  dryRun : Bool := false

inductive SuspendReason where
  | humanApprovalRequired (skillNames : List String)
  | providerRequested (message : String)
deriving DecidableEq

inductive ContinueReason where
  | toolResultAppended
  | modelRequested
deriving DecidableEq

/- `continueWith` and `yieldWith` stand for two keywords. -/
inductive AgentAction where
  | plan (summary : String)
      (candidateActions : List String) (confidence : F64)
  | respond (content : String)
  | callSkills (calls : List PlannedSkillCall)
  | continueWith (reason : ContinueReason)
  | yieldWith (reason : Option String)
  | memorySearch (query : String) (limit : Nat)
  | memoryArchive (content : String)
  | suspend (reason : SuspendReason)
      (pendingCalls : List PlannedSkillCall)
      (resumeToken : ResumeToken)
  | delegate (target : DelegationTarget)
      (task : DelegationTask)
      (correlationId : CorrelationId)
      (resumeToken : ResumeToken)

inductive DeliberationOutcome where
  | needsRefinement
  | readyToAct
deriving DecidableEq

structure DeliberationRecord where
  deliberationId : String
  triggerId : String
  step : Nat
  summary : String
  candidateActions : List String
  confidence : F64
  outcome : DeliberationOutcome

structure ExecutionPlan where
  objective : String
  steps : List AgentAction

/- `completedAt` only tells whether the time is set. -/
structure ExecutionPlanRecord where
  planId : String
  objective : String
  steps : List AgentAction
  currentStepIndex : Nat
  completedAt : Bool

structure ModelDecisionRecord where
  step : Nat
  action : AgentAction

------------------------------------------------------------
-- Tool Graphs
------------------------------------------------------------

structure ToolDependency where
  callId : String
deriving DecidableEq

structure ToolNode where
  callId : String
  skillName : String
  args : Json
  priority : Int
  dependencies : List ToolDependency
  retryPolicy : ToolRetryPolicy
  dryRun : Bool
  providerOrder : Nat

structure ToolExecutionGraph where
  graphId : String
  triggerId : String
  step : Nat
  nodes : List ToolNode

inductive ToolNodeStatus where
  | queued
  | validated
  | started
  | succeeded
  | failed
  | skipped
  | timedOut
deriving DecidableEq

structure ToolNodeCheckpointRecord where
  checkpointId : String
  graphId : String
  callId : String
  skillName : String
  step : Nat
  status : ToolNodeStatus
  attempt : Nat
  detail : Option String
deriving DecidableEq

structure SkillInputValidationRecord where
  validationId : String
  graphId : String
  callId : String
  skillName : String
  valid : Bool
  errors : List String
deriving DecidableEq

inductive SkillBackendKind where
  | wasm
  | native
deriving DecidableEq

structure ToolCallRecord where
  callId : String
  step : Nat
  skillName : String
  args : Json
  backendKind : SkillBackendKind

inductive SkillFailureKind where
  | permissionDenied
  | capabilityDenied
  | invalidArguments
  | timeout
  | memoryLimitExceeded
  | trap
  | invalidResponse
  | internal
deriving DecidableEq

structure SkillFailure where
  kind : SkillFailureKind
  message : String
deriving DecidableEq

structure ToolResultRecord where
  callId : String
  skillName : String
  output : Except SkillFailure Json

/- Whether the output is `Ok`. -/
def ToolResultRecord.isOk (result : ToolResultRecord) : Bool :=
  match result.output with
  | .ok _ => true
  | .error _ => false

------------------------------------------------------------
-- Skills
------------------------------------------------------------

structure ResourcePolicy where
  timeoutMs : Nat
  maxMemoryBytes : Nat
  maxFuel : Option Nat
  priorityClass : Int
  retryPolicy : RetryPolicy
  dryRunSupported : Bool
deriving DecidableEq

inductive SkillCapability where
  | keyValueRead (namespaces : List String)
  | httpOutbound (allowHosts : List String)
  | structuredLog
deriving DecidableEq

structure SkillManifest where
  name : String
  description : String
  inputSchema : Json
  requiredScopes : List String
  capabilityGrants : List SkillCapability
  resourcePolicy : ResourcePolicy
  approvalRequired : Bool
  circuitBreakerThreshold : F64

structure SkillDefinition where
  manifest : SkillManifest
  executorKind : String

/-
  The backend of a registered skill. Of the executor itself
  the model keeps what the kernel asks it beside running it.
-/
inductive RegisteredSkillBackend where
  | wasm (executorKind : String)
  | native (executorKind : String)
      (requiresHumanApproval : Bool)
deriving DecidableEq

structure RegisteredSkill where
  manifest : SkillManifest
  backend : RegisteredSkillBackend

------------------------------------------------------------
-- Approvals, Provider Accounting And Outcomes
------------------------------------------------------------

structure PendingApprovalRecord where
  resumeToken : ResumeToken
  triggerId : String
  step : Nat
  reason : SuspendReason
  pendingCalls : List PlannedSkillCall

structure ApprovalResolutionRecord where
  resumeToken : ResumeToken
  decision : ApprovalDecision
  metadata : Json

structure CoordinationClaimRecord where
  claimId : String
  triggerKey : String
deriving DecidableEq

structure ProviderUsageRecord where
  providerName : String
  inputTokens : Nat
  outputTokens : Nat
  estimatedCostUsd : F64
  cachedContentId : Option String
deriving DecidableEq

structure ProviderCacheRecord where
  providerName : String
  cachedContentId : String
  tokenCount : Nat
deriving DecidableEq

inductive StopReason where
  | responded
  | yielded
  | maxStepsReached
  | deadlineExceeded
  | cancelled
  | providerFailure
  | storageFailure
  | policyAborted
  | suspended
  | delegated
deriving DecidableEq

structure OutcomeRecord where
  triggerId : String
  idempotencyKey : Option String
  stopReason : StopReason
  response : Option String
  detail : Option String
  stepsExecuted : Nat
  resumeToken : Option ResumeToken
deriving DecidableEq

------------------------------------------------------------
-- Policies And Self-Improvement
------------------------------------------------------------

inductive SelfImprovementMode where
  | advisory
  | autoWithGuardrails
  | shadow
deriving DecidableEq

structure SelfImprovementPolicy where
  enabled : Bool
  mode : SelfImprovementMode
  evaluatorModel : Option String
  reflectionIntervalRecords : Nat
  minObservationsBeforeTuning : Nat
  maxPolicyDeltaPercent : F64
  requireApprovalForScopeExpansion : Bool
  rollbackOnRegression : Bool
deriving DecidableEq

structure EnginePolicy where
  maxSteps : Nat
  maxExecutionTimeMs : Nat
  providerTimeoutMs : Nat
  maxToolTimeoutMs : Nat
  maxConsecutiveToolFailures : Nat
  cacheThresholdTokens : Nat
  maxCostPerSession : F64
  maxParallelSkillCalls : Nat
  maxInlineAttachmentBytes : Nat
  allowNativeSkills : Bool
  validateToolArgs : Bool
  maxReadyToolNodes : Nat
  maxToolRetriesPerStep : Nat
  enableToolDryRun : Bool
  selfImprovement : SelfImprovementPolicy
deriving DecidableEq

structure PolicyOverlayPatch where
  maxSteps : Option Nat := none
  maxExecutionTimeMs : Option Nat := none
  providerTimeoutMs : Option Nat := none
  maxToolTimeoutMs : Option Nat := none
  maxParallelSkillCalls : Option Nat := none
deriving DecidableEq

inductive PolicyOverlayStatus where
  | proposed
  | applied
  | rolledBack
  | rejected
deriving DecidableEq

structure PolicyOverlay where
  overlayId : String
  status : PolicyOverlayStatus
  reason : String
  evidenceWindowRecords : Nat
  patch : PolicyOverlayPatch
  confidence : F64
  rollbackCondition : String
deriving DecidableEq

inductive PolicyTuningAction where
  | proposed
  | applied
  | rolledBack
  | rejectedUnsafe
deriving DecidableEq

structure PolicyTuningRecord where
  tuningId : String
  overlay : PolicyOverlay
  action : PolicyTuningAction
  priorPolicy : EnginePolicy
  projectedPolicy : EnginePolicy
deriving DecidableEq

structure ReflectionRecord where
  reflectionId : String
  triggerId : String
  summary : String
  observations : List String
  confidence : F64
deriving DecidableEq

structure StrategyPreferenceRecord where
  preferenceId : String
  skillName : Option String
  preference : String
  reason : String
  confidence : F64
deriving DecidableEq

structure ToolPerformanceRecord where
  performanceId : String
  skillName : String
  backendKind : String
  calls : Nat
  successes : Nat
  failures : Nat
  failureRate : F64
deriving DecidableEq

structure ProfilePatchRecord where
  patchId : String
  description : String
  patch : Json
  requiresApproval : Bool
  applied : Bool

structure SummaryRecord where
  summaryId : String
  content : String
  originalSequenceRange : Nat × Nat
deriving DecidableEq

------------------------------------------------------------
-- Session Records
------------------------------------------------------------

/- One record of the append-only session ledger. -/
inductive SessionRecord where
  | trigger (record : TriggerRecord)
  | triggerIntent (record : TriggerIntentRecord)
  | kernelEvent (record : KernelEventRecord)
  | modelDecision (record : ModelDecisionRecord)
  | deliberation (record : DeliberationRecord)
  | toolExecutionGraph (record : ToolExecutionGraph)
  | toolNodeCheckpoint (record : ToolNodeCheckpointRecord)
  | skillInputValidation
      (record : SkillInputValidationRecord)
  | toolCall (record : ToolCallRecord)
  | toolResult (record : ToolResultRecord)
  | pendingApproval (record : PendingApprovalRecord)
  | approvalResolution (record : ApprovalResolutionRecord)
  | delegation (record : DelegationRecord)
  | coordinationClaim (record : CoordinationClaimRecord)
  | providerUsage (record : ProviderUsageRecord)
  | providerCache (record : ProviderCacheRecord)
  | reflection (record : ReflectionRecord)
  | policyTuning (record : PolicyTuningRecord)
  | strategyPreference (record : StrategyPreferenceRecord)
  | toolPerformance (record : ToolPerformanceRecord)
  | profilePatch (record : ProfilePatchRecord)
  | executionPlan (record : ExecutionPlanRecord)
  | summary (record : SummaryRecord)
  | outcome (record : OutcomeRecord)

end RainEngine
