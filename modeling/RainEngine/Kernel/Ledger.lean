import RainEngine.Kernel.Policy
import RainEngine.Kernel.State
import Mathlib.Data.Finset.Card
import Mathlib.Data.List.DropRight

/-
  This file defines what the kernel reads off a ledger: the
  records since the last outcome, the active trigger, plan,
  tool graph and policy overlay, the step and failure counts,
  and the two lookups of the memory store.

  Key definitions include:
    * `SessionSnapshot`
    * `sinceLastOutcome`
    * `activeTrigger`
    * `activeExecutionPlan`
    * `activeToolExecutionGraph`
    * `activePolicyOverlay`
    * `currentStepCount`
    * `currentConsecutiveToolFailureSteps`
    * `findOutcomeByIdempotencyKey`
    * `findPendingApprovalByResumeToken`
-/

namespace RainEngine

------------------------------------------------------------
-- Record Kinds
------------------------------------------------------------

namespace SessionRecord

def isOutcome : SessionRecord → Bool
| .outcome _ => true
| _ => false

def asTrigger : SessionRecord → Option TriggerRecord
| .trigger record => some record
| _ => none

def asKernelEvent :
    SessionRecord → Option KernelEventRecord
| .kernelEvent record => some record
| _ => none

def asToolExecutionGraph :
    SessionRecord → Option ToolExecutionGraph
| .toolExecutionGraph record => some record
| _ => none

def asToolNodeCheckpoint :
    SessionRecord → Option ToolNodeCheckpointRecord
| .toolNodeCheckpoint record => some record
| _ => none

def asToolCall : SessionRecord → Option ToolCallRecord
| .toolCall record => some record
| _ => none

def asToolResult : SessionRecord → Option ToolResultRecord
| .toolResult record => some record
| _ => none

def asPendingApproval :
    SessionRecord → Option PendingApprovalRecord
| .pendingApproval record => some record
| _ => none

def asApprovalResolution :
    SessionRecord → Option ApprovalResolutionRecord
| .approvalResolution record => some record
| _ => none

def asProviderUsage :
    SessionRecord → Option ProviderUsageRecord
| .providerUsage record => some record
| _ => none

def asPolicyTuning :
    SessionRecord → Option PolicyTuningRecord
| .policyTuning record => some record
| _ => none

def asExecutionPlan :
    SessionRecord → Option ExecutionPlanRecord
| .executionPlan record => some record
| _ => none

def asOutcome : SessionRecord → Option OutcomeRecord
| .outcome record => some record
| _ => none

end SessionRecord

------------------------------------------------------------
-- Readings Of A Record List
------------------------------------------------------------

/- The records after the last outcome. -/
def sinceLastOutcome
    (records : List SessionRecord) :
    List SessionRecord :=
  records.rtakeWhile (fun record => !record.isOutcome)

theorem sinceLastOutcome_append
    (records : List SessionRecord)
    (record : SessionRecord) :
    sinceLastOutcome (records ++ [record]) =
      if record.isOutcome then []
      else sinceLastOutcome records ++ [record] := by
  unfold sinceLastOutcome
  rw [List.rtakeWhile_concat]
  cases record.isOutcome <;> rfl

theorem sinceLastOutcome_append_list
    {records more : List SessionRecord}
    (hMore : ∀ record ∈ more, record.isOutcome = false) :
    sinceLastOutcome (records ++ more) =
      sinceLastOutcome records ++ more := by
  induction more using List.reverseRecOn with
  | nil => simp
  | append_singleton more record ih =>
      have hRecord := hMore record (by simp)
      rw [← List.append_assoc, sinceLastOutcome_append, hRecord,
        ih (fun r hMem => hMore r (by simp [hMem]))]
      simp

theorem sinceLastOutcome_suffix
    (records : List SessionRecord) :
    sinceLastOutcome records <:+ records :=
  List.rtakeWhile_suffix _ _

def latestOutcome
    (records : List SessionRecord) :
    Option OutcomeRecord :=
  records.findSomeRev? SessionRecord.asOutcome

def toolResults
    (records : List SessionRecord) :
    List ToolResultRecord :=
  records.filterMap SessionRecord.asToolResult

/- The estimated provider cost of a session. -/
def totalEstimatedCostUsd
    (records : List SessionRecord) :
    F64 :=
  F64.sum ((records.filterMap SessionRecord.asProviderUsage).map
    (·.estimatedCostUsd))

/- The oldest trigger since the last outcome. -/
def activeTrigger
    (records : List SessionRecord) :
    Option TriggerRecord :=
  (sinceLastOutcome records).findSome?
    SessionRecord.asTrigger

/- The newest plan version that is not completed. -/
def activeExecutionPlan
    (records : List SessionRecord) :
    Option ExecutionPlanRecord :=
  records.findSomeRev? fun record =>
    match record with
    | .executionPlan plan =>
        if plan.completedAt then none else some plan
    | _ => none

def ToolNodeStatus.isTerminal : ToolNodeStatus → Bool
| .succeeded => true
| .failed => true
| .skipped => true
| .timedOut => true
| .queued => false
| .validated => false
| .started => false

/- The calls of a graph that have a terminal checkpoint. -/
def terminalCallIds
    (graphId : String)
    (records : List SessionRecord) :
    Finset String :=
  ((records.filterMap SessionRecord.asToolNodeCheckpoint).filterMap
    fun checkpoint =>
      if checkpoint.graphId = graphId ∧
          checkpoint.status.isTerminal then
        some checkpoint.callId
      else none).toFinset

/-
  The newest graph since the last outcome, unless it has as
  many terminal call ids as nodes.
-/
def activeToolExecutionGraph
    (records : List SessionRecord) :
    Option ToolExecutionGraph :=
  let slice := sinceLastOutcome records
  match slice.findSomeRev?
      SessionRecord.asToolExecutionGraph with
  | none => none
  | some graph =>
      if (terminalCallIds graph.graphId slice).card <
          graph.nodes.length then
        some graph
      else none

/-
  The newest graph since the last outcome is active unless it
  has as many terminal call ids as nodes.
-/
theorem activeToolExecutionGraph_append
    {records more : List SessionRecord}
    {graph : ToolExecutionGraph}
    (hOutcome : ∀ record ∈ more, record.isOutcome = false)
    (hGraph : ∀ record ∈ more,
      record.asToolExecutionGraph = none) :
    activeToolExecutionGraph
        (records ++ .toolExecutionGraph graph :: more) =
      if (terminalCallIds graph.graphId
            (sinceLastOutcome records ++
              .toolExecutionGraph graph :: more)).card <
          graph.nodes.length then
        some graph
      else none := by
  have hSlice :
      sinceLastOutcome
          (records ++ .toolExecutionGraph graph :: more) =
        sinceLastOutcome records ++
          .toolExecutionGraph graph :: more := by
    apply sinceLastOutcome_append_list
    intro record hMem
    rcases List.mem_cons.mp hMem with hHead | hTail
    · subst hHead
      rfl
    · exact hOutcome record hTail
  have hNewest :
      (sinceLastOutcome records ++
        .toolExecutionGraph graph :: more).findSomeRev?
          SessionRecord.asToolExecutionGraph =
        some graph := by
    rw [List.findSomeRev?_eq_findSome?_reverse,
      List.reverse_append, List.reverse_cons,
      List.append_assoc, List.findSome?_append,
      List.findSome?_eq_none_iff.mpr]
    · rfl
    · intro record hMem
      exact hGraph record (List.mem_reverse.mp hMem)
  unfold activeToolExecutionGraph
  rw [hSlice]
  simp only [hNewest]

/- The decisions and deliberations since the last outcome. -/
def currentStepCount
    (records : List SessionRecord) :
    Nat :=
  ((sinceLastOutcome records).filter fun record =>
    match record with
    | .modelDecision _ => true
    | .deliberation _ => true
    | _ => false).length

/- The overlays a tuning record of the ledger rolls back. -/
def rolledBackOverlayIds
    (records : List SessionRecord) :
    List String :=
  ((records.filterMap SessionRecord.asPolicyTuning).filter
    (·.action = .rolledBack)).map (·.overlay.overlayId)

/-
  The newest applied overlay that no record rolls back.
-/
def activePolicyOverlay
    (records : List SessionRecord) :
    Option PolicyOverlay :=
  records.findSomeRev? fun record =>
    match record with
    | .policyTuning tuning =>
        if tuning.action = .applied ∧
            tuning.overlay.status = .applied ∧
            tuning.overlay.overlayId ∉
              rolledBackOverlayIds records then
          some tuning.overlay
        else none
    | _ => none

------------------------------------------------------------
-- Consecutive Tool Failures
------------------------------------------------------------

/-
  The decisions seen so far, each with the tool results up
  to the next decision or deliberation.
-/
structure DecisionWindows where
  closed : List (AgentAction × List ToolResultRecord)
  action : Option AgentAction
  results : List ToolResultRecord

namespace DecisionWindows

def empty : DecisionWindows where
  closed := []
  action := none
  results := []

/- Close the open window, if there is one. -/
def close
    (windows : DecisionWindows)
    (action : Option AgentAction) :
    DecisionWindows :=
  match windows.action with
  | some old =>
      { closed := windows.closed ++ [(old, windows.results)]
        action := action
        results := [] }
  | none => { windows with action := action }

def addRecord
    (windows : DecisionWindows) :
    SessionRecord → DecisionWindows
| .modelDecision decision => windows.close decision.action
| .deliberation _ => windows.close none
| .toolResult result =>
    { windows with results := windows.results ++ [result] }
| _ => windows

/- The windows of a record list, the last one closed too. -/
def ofRecords
    (records : List SessionRecord) :
    List (AgentAction × List ToolResultRecord) :=
  ((records.foldl addRecord empty).close none).closed

end DecisionWindows

/- A non-empty batch all of whose calls have failed. -/
def isFailedBatch
    (window : AgentAction × List ToolResultRecord) :
    Bool :=
  match window.1 with
  | .callSkills calls =>
      !calls.isEmpty &&
        window.2.length == calls.length &&
        window.2.all (fun result => !result.isOk)
  | _ => false

def currentConsecutiveToolFailureSteps
    (records : List SessionRecord) :
    Nat :=
  ((DecisionWindows.ofRecords
    (sinceLastOutcome records)).reverse.takeWhile
      isFailedBatch).length

------------------------------------------------------------
-- Snapshots
------------------------------------------------------------

structure SessionSnapshot where
  sessionId : String
  records : List SessionRecord
  latestOutcome : Option OutcomeRecord

/- The agent state the kernel events of a ledger add up to. -/
def agentState
    (sessionId : String)
    (records : List SessionRecord) :
    AgentStateSnapshot :=
  ((records.filterMap SessionRecord.asKernelEvent).foldl
    (fun state record =>
      AgentStateSnapshot.applyEvent state record.event)
    (AgentStateSnapshot.empty sessionId)).withProfile

structure ProviderRequestConfig where
  model : Option String := none
  temperature : Option F64 := none
  maxTokens : Option Nat := none

structure ExecutionMetadata where
  triggerId : String
  idempotencyKey : Option String
  policy : EnginePolicy
  provider : ProviderRequestConfig
  cancelled : Bool

structure AgentContext where
  sessionId : String
  records : List SessionRecord
  priorToolResults : List ToolResultRecord
  grantedScopes : List String
  metadata : ExecutionMetadata

structure AgentContextSnapshot where
  sessionId : String
  grantedScopes : List String
  triggerId : String
  idempotencyKey : Option String
  currentStep : Nat
  maxSteps : Nat
  history : List SessionRecord
  priorToolResults : List ToolResultRecord
  sessionCostUsd : F64
  state : AgentStateSnapshot
  policy : EnginePolicy
  activeExecutionPlan : Option ExecutionPlanRecord

namespace AgentContext

/- Extend the in-memory copy of the ledger. -/
def push
    (context : AgentContext)
    (record : SessionRecord) :
    AgentContext :=
  { context with records := context.records ++ [record] }

/- Take note of a tool result. -/
def pushToolResult
    (context : AgentContext)
    (result : ToolResultRecord) :
    AgentContext :=
  { context with
    records := context.records ++ [.toolResult result]
    priorToolResults := context.priorToolResults ++ [result] }

def toSnapshot
    (context : AgentContext)
    (currentStep : Nat) :
    AgentContextSnapshot where
  sessionId := context.sessionId
  grantedScopes := context.grantedScopes
  triggerId := context.metadata.triggerId
  idempotencyKey := context.metadata.idempotencyKey
  currentStep := currentStep
  maxSteps := context.metadata.policy.maxSteps
  history := context.records
  priorToolResults := context.priorToolResults
  sessionCostUsd := totalEstimatedCostUsd context.records
  state := agentState context.sessionId context.records
  policy := context.metadata.policy
  activeExecutionPlan :=
    RainEngine.activeExecutionPlan context.records

end AgentContext

------------------------------------------------------------
-- Store Lookups
------------------------------------------------------------

structure EngineOutcome where
  triggerId : String
  stopReason : StopReason
  response : Option String
  detail : Option String
  stepsExecuted : Nat
  idempotentReplay : Bool
  resumeToken : Option ResumeToken
deriving DecidableEq

def EngineOutcome.fromRecord
    (record : OutcomeRecord) :
    EngineOutcome where
  triggerId := record.triggerId
  stopReason := record.stopReason
  response := record.response
  detail := record.detail
  stepsExecuted := record.stepsExecuted
  idempotentReplay := false
  resumeToken := record.resumeToken

/- The newest outcome recorded under an idempotency key. -/
def findOutcomeByIdempotencyKey
    (records : List SessionRecord)
    (idempotencyKey : String) :
    Option EngineOutcome :=
  records.findSomeRev? fun record =>
    match record with
    | .outcome outcome =>
        if outcome.idempotencyKey = some idempotencyKey then
          some (.fromRecord outcome)
        else none
    | _ => none

/- What one record does to the approval found so far. -/
def trackPendingApproval
    (resumeToken : ResumeToken)
    (pending : Option PendingApprovalRecord) :
    SessionRecord → Option PendingApprovalRecord
| .pendingApproval record =>
    if record.resumeToken = resumeToken then some record
    else pending
| .approvalResolution record =>
    if record.resumeToken = resumeToken then none
    else pending
| _ => pending

/-
  The newest pending approval of a token that no later
  resolution of the token answers.
-/
def findPendingApprovalByResumeToken
    (records : List SessionRecord)
    (resumeToken : ResumeToken) :
    Option PendingApprovalRecord :=
  records.foldl (trackPendingApproval resumeToken) none

end RainEngine
