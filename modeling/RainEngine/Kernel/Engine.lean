import RainEngine.Kernel.Improvement

/-
  This file defines one advance of the kernel: the trigger
  and the continue path, the single step with its policy
  guard and provider call, the actions, and the outcome.

  Key definitions include:
    * `ProcessRequest`
    * `AdvanceResult`
    * `finish`
    * `executeAction`
    * `performSingleStep`
    * `advanceTrigger`
    * `advanceContinue`
    * `advance`
-/

namespace RainEngine

open Effects

------------------------------------------------------------
-- Requests And Results
------------------------------------------------------------

/- `cancelled` is the state of the token at the start. -/
structure ProcessRequest where
  sessionId : String
  trigger : AgentTrigger
  grantedScopes : List String := []
  idempotencyKey : Option String := none
  policy : EnginePolicy := .default
  provider : ProviderRequestConfig := {}
  cancelled : Bool := false

structure ContinueRequest where
  sessionId : String
  grantedScopes : List String := []
  policy : EnginePolicy := .default
  provider : ProviderRequestConfig := {}
  cancelled : Bool := false

inductive AdvanceRequest where
  | trigger (request : ProcessRequest)
  | continueWith (request : ContinueRequest)

structure AdvanceResult where
  outcome : Option EngineOutcome
  emittedEvents : List KernelEventRecord
  stateDelta : AgentStateDelta
  wakeRequest : Option WakeRequestRecord

/- A result that reports an outcome and nothing else. -/
def outcomeOnly
    (outcome : EngineOutcome)
    (emittedEvents : List KernelEventRecord) :
    AdvanceResult where
  outcome := some outcome
  emittedEvents := emittedEvents
  stateDelta := {}
  wakeRequest := none

def storageFailureOutcome
    (triggerId : String)
    (stepsExecuted : Nat)
    (error : MemoryError) :
    EngineOutcome where
  triggerId := triggerId
  stopReason := .storageFailure
  response := none
  detail := some error.message
  stepsExecuted := stepsExecuted
  idempotentReplay := false
  resumeToken := none

/- The result of an advance that did not end the run. -/
def progressResult
    (emittedEvents : List KernelEventRecord) :
    AdvanceResult where
  outcome := none
  emittedEvents := emittedEvents
  stateDelta := deriveStateDelta emittedEvents
  wakeRequest := emittedEvents.findSome? extractWakeRequest

def buildAdvanceResult
    (outcome : EngineOutcome)
    (emittedEvents : List KernelEventRecord) :
    AdvanceResult where
  outcome := some outcome
  emittedEvents := emittedEvents
  stateDelta := deriveStateDelta emittedEvents
  wakeRequest := emittedEvents.findSome? extractWakeRequest

------------------------------------------------------------
-- Outcomes
------------------------------------------------------------

/-
  Record an outcome, improve, refresh the cached projection
  and report. A failed append of the outcome is only logged.
-/
def finish
    (engine : AgentEngine)
    (context : AgentContext)
    (stopReason : StopReason)
    (response detail : Option String)
    (stepsExecuted : Nat)
    (resumeToken : Option ResumeToken) :
    EngineM EngineOutcome := do
  let outcome : OutcomeRecord :=
    { triggerId := context.metadata.triggerId
      idempotencyKey := context.metadata.idempotencyKey
      stopReason := stopReason
      response := response
      detail := detail
      stepsExecuted := stepsExecuted
      resumeToken := resumeToken }
  let _ ← append (.outcome outcome)
  let context ← runSelfImprovement engine
    (context.push (.outcome outcome)) outcome
  let _ ← Program.perform (Op.setProjection
    { sessionId := context.sessionId
      records := context.records
      latestOutcome := some outcome })
  pure (.fromRecord outcome)

/- End the advance with an outcome. -/
def finishAdvance
    (engine : AgentEngine)
    (context : AgentContext)
    (stopReason : StopReason)
    (response detail : Option String)
    (stepsExecuted : Nat)
    (resumeToken : Option ResumeToken)
    (emittedEvents : List KernelEventRecord) :
    EngineM AdvanceResult := do
  let outcome ← finish engine context stopReason response
    detail stepsExecuted resumeToken
  pure (buildAdvanceResult outcome emittedEvents)

def suspendDetail : SuspendReason → String
| .humanApprovalRequired _ => "human approval required"
| .providerRequested message => message

/- Record a pending approval and suspend the run. -/
def suspend
    (engine : AgentEngine)
    (context : AgentContext)
    (step : Nat)
    (reason : SuspendReason)
    (pendingCalls : List PlannedSkillCall)
    (resumeToken : ResumeToken)
    (emittedEvents : List KernelEventRecord) :
    EngineM AdvanceResult := do
  let context ← appendAndPush context
    (.pendingApproval
      { resumeToken := resumeToken
        triggerId := context.metadata.triggerId
        step := step
        reason := reason
        pendingCalls := pendingCalls })
  finishAdvance engine context .suspended none
    (some (suspendDetail reason)) step (some resumeToken)
    emittedEvents

------------------------------------------------------------
-- The Policy Guard
------------------------------------------------------------

/- The provider has cost as much as the policy allows. -/
def costLimitReached (context : AgentContext) : Bool :=
  context.metadata.policy.maxCostPerSession.le
    (totalEstimatedCostUsd context.records)

/- The stop reason and detail of the policy, if it stops. -/
def policyStop
    (context : AgentContext)
    (stepsExecuted consecutiveToolFailureSteps : Nat) :
    EngineM (Option (StopReason × String)) := do
  let policy := context.metadata.policy
  let cancelled ← Program.perform
    (Op.isCancelled context.metadata.cancelled)
  if cancelled then
    pure (some (.cancelled, "execution cancelled"))
  else
    let late ← Program.perform
      (Op.deadlineReached policy.maxExecutionTime)
    if late then
      pure (some (.deadlineExceeded,
        "engine execution deadline exceeded"))
    else if policy.maxSteps ≤ stepsExecuted then
      pure (some (.maxStepsReached, "max steps reached"))
    else if policy.maxConsecutiveToolFailures ≤
        consecutiveToolFailureSteps then
      pure (some (.policyAborted,
        "max consecutive tool failure steps reached"))
    else if costLimitReached context then
      pure (some (.policyAborted,
        "session cost limit reached"))
    else pure none

def policyOutcome
    (engine : AgentEngine)
    (context : AgentContext)
    (stepsExecuted consecutiveToolFailureSteps : Nat) :
    EngineM (Option EngineOutcome) := do
  match ← policyStop context stepsExecuted
      consecutiveToolFailureSteps with
  | none => pure none
  | some (stopReason, detail) =>
      let outcome ← finish engine context stopReason none
        (some detail) stepsExecuted none
      pure (some outcome)

------------------------------------------------------------
-- Actions
------------------------------------------------------------

/- Append kernel events; a failed append ends the advance. -/
def persistKernelEvents :
    List KernelEventRecord → AgentContext →
      EngineM AgentContext
| [], context => pure context
| event :: rest, context => do
    let context ←
      appendAndPush context (.kernelEvent event)
    persistKernelEvents rest context

/-
  Append the results of a batch, keeping them in the context;
  the first failed append is reported.
-/
def recordResults :
    List ToolResultRecord → AgentContext →
      EngineM (Except MemoryError AgentContext)
| [], context => pure (.ok context)
| result :: rest, context => do
    match ← append (.toolResult result) with
    | .error error => pure (.error error)
    | .ok _ =>
        recordResults rest (context.pushToolResult result)

/- The same, where a failed append ends the advance. -/
def recordResultsOrFail
    (results : List ToolResultRecord)
    (context : AgentContext) :
    EngineM AgentContext := do
  match ← recordResults results context with
  | .ok context => pure context
  | .error error => .throw (.memory error)

/-
  Two events of a memory action: what was done, and the
  observation the provider sees of it.
-/
def recordMemoryAction
    (event : KernelEvent)
    (source : String)
    (content : Json)
    (context : AgentContext)
    (emittedEvents : List KernelEventRecord) :
    EngineM AdvanceResult := do
  let eventId ← newUuid
  let event : KernelEventRecord :=
    { eventId := eventId, event := event }
  let context ← appendAndPush context (.kernelEvent event)
  let observationEventId ← newUuid
  let observationId ← newUuid
  let observation : KernelEventRecord :=
    { eventId := observationEventId
      event := .observationAppended
        { observationId := observationId
          source := source
          content := content
          attachmentIds := []
          relatedResources := [] } }
  let _ ← appendAndPush context (.kernelEvent observation)
  pure (progressResult
    (emittedEvents ++ [event, observation]))

/- The first records whose text contains the query. -/
def searchRecords
    (rendering : Rendering)
    (records : List SessionRecord)
    (query : String)
    (limit : Nat) :
    List SessionRecord :=
  (records.filter fun record =>
    containsText
      (rendering.toLowercase (rendering.debugRecord record))
      (rendering.toLowercase query)).take (limit.max 1)

def deliberationOutcome (confidence : F64) :
    DeliberationOutcome :=
  if (F64.round (7 / 10)).le confidence then .readyToAct
  else .needsRefinement

/- Run a batch of calls and record its results. -/
def executeCalls
    (engine : AgentEngine)
    (context : AgentContext)
    (calls : List PlannedSkillCall)
    (stepsExecuted : Nat)
    (emittedEvents : List KernelEventRecord) :
    EngineM AdvanceResult := do
  match ← executePlannedCalls engine context stepsExecuted
      calls false with
  | .executed batch =>
      match ← recordResults batch.results context with
      | .error error =>
          pure (outcomeOnly
            (storageFailureOutcome
              context.metadata.triggerId
              (stepsExecuted + 1) error)
            emittedEvents)
      | .ok _ => pure (progressResult emittedEvents)
  | .suspended reason pendingCalls resumeToken =>
      suspend engine context stepsExecuted reason
        pendingCalls resumeToken emittedEvents

/- Hand a task to another worker and end the run. -/
def delegateTask
    (engine : AgentEngine)
    (context : AgentContext)
    (record : DelegationRecord)
    (stepsExecuted : Nat)
    (emittedEvents : List KernelEventRecord) :
    EngineM AdvanceResult := do
  let context ← appendAndPush context (.delegation record)
  let event : KernelEventRecord :=
    { eventId := "delegation-" ++ record.correlationId
      event := .delegationRequested record }
  let context ← appendAndPush context (.kernelEvent event)
  finishAdvance engine context .delegated none
    (some "delegated to downstream worker")
    (stepsExecuted + 1) (some record.resumeToken)
    (emittedEvents ++ [event])

def executeAction
    (engine : AgentEngine)
    (context : AgentContext)
    (action : AgentAction)
    (stepsExecuted : Nat)
    (emittedEvents : List KernelEventRecord) :
    EngineM AdvanceResult := do
  match action with
  | .plan summary candidateActions confidence =>
      let deliberationId ← newUuid
      appendOrFail
        (.deliberation
          { deliberationId := deliberationId
            triggerId := context.metadata.triggerId
            step := stepsExecuted
            summary := summary
            candidateActions := candidateActions
            confidence := confidence
            outcome := deliberationOutcome confidence })
      pure (progressResult emittedEvents)
  | .respond content =>
      finishAdvance engine context .responded (some content)
        none (stepsExecuted + 1) none emittedEvents
  | .yieldWith reason =>
      finishAdvance engine context .yielded none reason
        (stepsExecuted + 1) none emittedEvents
  | .memorySearch query limit =>
      -- only the first page of the ledger is searched
      let page ← Program.perform (Op.listRecords 0 100)
      let records :=
        match page with
        | .ok page => page.records
        | .error _ => []
      let found := searchRecords engine.rendering records
        query limit
      recordMemoryAction (.memorySearched query limit)
        "MemorySearch"
        (engine.rendering.recordsValue found) context
        emittedEvents
  | .memoryArchive content =>
      recordMemoryAction (.memoryArchived content)
        "MemoryArchive"
        (.object
          [("status", .string "archived successfully")])
        context emittedEvents
  | .continueWith _ => pure (progressResult emittedEvents)
  | .suspend reason pendingCalls resumeToken =>
      suspend engine context stepsExecuted reason
        pendingCalls resumeToken emittedEvents
  | .callSkills calls =>
      executeCalls engine context calls stepsExecuted
        emittedEvents
  | .delegate target task correlationId resumeToken =>
      delegateTask engine context
        { correlationId := correlationId
          triggerId := context.metadata.triggerId
          target := target
          task := task
          resumeToken := resumeToken }
        stepsExecuted emittedEvents

------------------------------------------------------------
-- The Single Step
------------------------------------------------------------

/- The plan version after its current step was taken. -/
def ExecutionPlanRecord.next
    (plan : ExecutionPlanRecord) :
    ExecutionPlanRecord :=
  { plan with
    currentStepIndex := plan.currentStepIndex + 1
    completedAt :=
      plan.completedAt ||
        decide (plan.steps.length ≤ plan.currentStepIndex + 1) }

/- The plan step that takes the place of a decision. -/
def duePlanStep
    (records : List SessionRecord) :
    Option (ExecutionPlanRecord × AgentAction) :=
  (activeExecutionPlan records).bind fun plan =>
    plan.steps[plan.currentStepIndex]?.map fun action =>
      (plan, action)

/- The newest warning recorded about a skill. -/
def strategyWarning
    (records : List SessionRecord)
    (skillName : String) :
    Option String :=
  records.findSomeRev? fun record =>
    match record with
    | .strategyPreference preference =>
        if preference.skillName = some skillName then
          some preference.reason
        else none
    | _ => none

/- Put a recorded warning into a skill's description. -/
def SkillDefinition.withWarning
    (records : List SessionRecord)
    (definition : SkillDefinition) :
    SkillDefinition :=
  match strategyWarning records definition.manifest.name with
  | none => definition
  | some reason =>
      { definition with
        manifest :=
          { definition.manifest with
            description :=
              definition.manifest.description ++
                " [CRITICAL WARNING: Avoid using this " ++
                "tool if possible. Reason: " ++ reason ++
                "]" } }

/- The skills the granted scopes suffice for. -/
def availableSkills
    (engine : AgentEngine)
    (context : AgentContext) :
    List SkillDefinition :=
  (engine.skills.entries.filter fun skill =>
    skill.manifest.requiredScopes.all
      (· ∈ context.grantedScopes)).map fun skill =>
        skill.definition.withWarning context.records

def providerRequest
    (engine : AgentEngine)
    (context : AgentContext)
    (trigger : AgentTrigger)
    (stepsExecuted : Nat) :
    ProviderRequest where
  trigger := trigger
  context := context.toSnapshot stepsExecuted
  availableSkills := availableSkills engine context
  config := context.metadata.provider
  policy := context.metadata.policy
  contents :=
    buildProviderContents engine.rendering trigger
      context.records (activeExecutionPlan context.records)

/- Record what the provider reports about its call. -/
def persistProviderMetadata
    (decision : ProviderDecision)
    (context : AgentContext) :
    EngineM AgentContext := do
  let context ←
    match decision.usage with
    | some usage =>
        appendAndPush context (.providerUsage usage)
    | none => pure context
  match decision.cache with
  | some cache =>
      appendAndPush context (.providerCache cache)
  | none => pure context

/- Record a decision of the provider and carry it out. -/
def followDecision
    (engine : AgentEngine)
    (context : AgentContext)
    (decision : ProviderDecision)
    (stepsExecuted : Nat)
    (emittedEvents : List KernelEventRecord) :
    EngineM AdvanceResult := do
  let context ← persistProviderMetadata decision context
  let record : ModelDecisionRecord :=
    { step := stepsExecuted, action := decision.action }
  match ← append (.modelDecision record) with
  | .error error =>
      pure (outcomeOnly
        (storageFailureOutcome context.metadata.triggerId
          stepsExecuted error)
        emittedEvents)
  | .ok _ =>
      executeAction engine
        (context.push (.modelDecision record))
        decision.action stepsExecuted emittedEvents

/- Ask the provider for the next action. -/
def askProvider
    (engine : AgentEngine)
    (context : AgentContext)
    (trigger : AgentTrigger)
    (stepsExecuted : Nat)
    (emittedEvents : List KernelEventRecord) :
    EngineM AdvanceResult := do
  let answer ← Program.perform (Op.generateAction
    (some context.metadata.policy.providerTimeout)
    (providerRequest engine context trigger stepsExecuted))
  match answer with
  | some (.ok decision) =>
      followDecision engine context decision stepsExecuted
        emittedEvents
  | some (.error error) =>
      finishAdvance engine context .providerFailure none
        (some ("provider failure: " ++ error.message))
        stepsExecuted none emittedEvents
  | none =>
      finishAdvance engine context .providerFailure none
        (some "provider timeout exceeded")
        stepsExecuted none emittedEvents

/-
  One step: a due plan step, or the policy guard and then the
  provider. A failed append of the plan is ignored.
-/
def performSingleStep
    (engine : AgentEngine)
    (context : AgentContext)
    (trigger : AgentTrigger)
    (stepsExecuted consecutiveToolFailureSteps : Nat)
    (emittedEvents : List KernelEventRecord) :
    EngineM AdvanceResult := do
  match duePlanStep context.records with
  | some (plan, action) =>
      let _ ← append (.executionPlan plan.next)
      executeAction engine context action stepsExecuted
        emittedEvents
  | none =>
      match ← policyOutcome engine context stepsExecuted
          consecutiveToolFailureSteps with
      | some outcome =>
          pure (buildAdvanceResult outcome emittedEvents)
      | none =>
          askProvider engine context trigger stepsExecuted
            emittedEvents

------------------------------------------------------------
-- Planning And Summaries
------------------------------------------------------------

/- The snapshot, read anew when the store answers. -/
def refreshSnapshot
    (snapshot : SessionSnapshot) :
    EngineM SessionSnapshot := do
  let answer ← Program.perform Op.loadSession
  match answer with
  | .ok refreshed => pure refreshed
  | .error _ => pure snapshot

/- Append the planner's events; failed appends are ignored. -/
def appendPlannedEvents : List KernelEvent → EngineM Unit
| [] => pure ()
| event :: rest => do
    let eventId ← newUuid
    let _ ← append (.kernelEvent
      { eventId := eventId, event := event })
    appendPlannedEvents rest

/- Append a proposed plan; a failed append is ignored. -/
def appendProposedPlan :
    Option ExecutionPlan → EngineM Unit
| none => pure ()
| some plan => do
    let planId ← newUuid
    let _ ← append (.executionPlan
      { planId := "plan-" ++ planId
        objective := plan.objective
        steps := plan.steps
        currentStepIndex := 0
        completedAt := false })
    pure ()

/- The request for a summary of the session so far. -/
def summaryRequest
    (engine : AgentEngine)
    (snapshot : SessionSnapshot)
    (policy : EnginePolicy)
    (trigger : AgentTrigger) :
    ProviderRequest where
  trigger := trigger
  context :=
    { sessionId := snapshot.sessionId
      grantedScopes := []
      triggerId := "internal"
      idempotencyKey := none
      currentStep := 0
      maxSteps := 0
      history := snapshot.records
      priorToolResults := toolResults snapshot.records
      sessionCostUsd := .finite 0
      state := agentState snapshot.sessionId snapshot.records
      policy := policy
      activeExecutionPlan :=
        activeExecutionPlan snapshot.records }
  availableSkills :=
    (engine.skills.entries.map
      RegisteredSkill.definition).insertionSort
        (fun left right =>
          left.manifest.name ≤ right.manifest.name)
  config := { temperature := some (.finite 0), maxTokens := some 500 }
  policy := policy
  contents :=
    [{ role := .user
       parts :=
         [.text ("Summarize the following conversation " ++
           "history concisely while preserving all key " ++
           "decisions, facts, and outcomes:\n\n" ++
           "\n".intercalate (snapshot.records.map
             engine.rendering.debugRecord))] }]

/- Ask the provider for a summary; it may decline. -/
def summarizeHistory
    (engine : AgentEngine)
    (snapshot : SessionSnapshot)
    (policy : EnginePolicy)
    (trigger : AgentTrigger) :
    EngineM (Option SummaryRecord) := do
  let answer ← Program.perform (Op.generateAction none
    (summaryRequest engine snapshot policy trigger))
  match answer with
  | some (.ok { action := .respond content, .. }) =>
      let summaryId ← newUuid
      pure (some
        { summaryId := "summary-" ++ summaryId
          content := content
          originalSequenceRange :=
            (0, snapshot.records.length) })
  | _ => pure none

/- Whether the history is long and has no summary yet. -/
def needsSummary (records : List SessionRecord) : Bool :=
  decide (10 < records.length) &&
    !records.any (· matches .summary _)

/- Summarize a history that has grown long. -/
def summarizeIfLong
    (engine : AgentEngine)
    (request : ProcessRequest)
    (snapshot : SessionSnapshot) :
    EngineM SessionSnapshot := do
  if needsSummary snapshot.records then
    match ← summarizeHistory engine snapshot request.policy
        request.trigger with
    | none => pure snapshot
    | some summary =>
        let _ ← append (.summary summary)
        refreshSnapshot snapshot
  else pure snapshot

/- Let the planner, if there is one, prepare the advance. -/
def runPlanner
    (engine : AgentEngine)
    (request : ProcessRequest)
    (snapshot : SessionSnapshot) :
    EngineM SessionSnapshot := do
  if engine.hasPlanner then
    let output ← Program.perform (Op.plan
      (agentState snapshot.sessionId snapshot.records)
      request.trigger)
    appendPlannedEvents output.events
    appendProposedPlan output.proposedPlan
    let changed :=
      !output.events.isEmpty || output.proposedPlan.isSome
    let snapshot ←
      if changed then refreshSnapshot snapshot
      else pure snapshot
    summarizeIfLong engine request snapshot
  else pure snapshot

------------------------------------------------------------
-- Approvals
------------------------------------------------------------

/- The pending approval an approval trigger is about. -/
structure ApprovalTarget where
  pending : PendingApprovalRecord
  alreadyResolved : Bool
  decision : ApprovalDecision

/- The oldest recorded resolution of a token. -/
def recordedResolution
    (records : List SessionRecord)
    (resumeToken : ResumeToken) :
    Option ApprovalResolutionRecord :=
  records.findSome? fun record =>
    record.asApprovalResolution.filter
      (·.resumeToken = resumeToken)

/- The oldest pending approval recorded for a token. -/
def recordedPending
    (records : List SessionRecord)
    (resumeToken : ResumeToken) :
    Option PendingApprovalRecord :=
  records.findSome? fun record =>
    record.asPendingApproval.filter
      (·.resumeToken = resumeToken)

/-
  A token that is no longer pending answers with its first
  pending approval and its first decision.
-/
def resolvedTarget
    (records : List SessionRecord)
    (resumeToken : ResumeToken) :
    Option ApprovalTarget := do
  let resolution ← recordedResolution records resumeToken
  let pending ← recordedPending records resumeToken
  pure
    { pending := pending
      alreadyResolved := true
      decision := resolution.decision }

def findApprovalTarget
    (context : AgentContext)
    (resumeToken : ResumeToken)
    (decision : ApprovalDecision) :
    EngineM (Option ApprovalTarget) := do
  let answer ← Program.perform
    (Op.findPendingApproval resumeToken)
  match answer with
  | .error error => .throw (.memory error)
  | .ok (some pending) =>
      pure (some
        { pending := pending
          alreadyResolved := false
          decision := decision })
  | .ok none =>
      pure (resolvedTarget context.records resumeToken)

/- The results of calls a human has rejected. -/
def rejectedBatch
    (calls : List PlannedSkillCall) :
    ExecutedBatch where
  results := calls.map fun call =>
    errorResult call.callId call.name .permissionDenied
      "human approval rejected"
  allFailed := true

/- What the calls of a resolved approval come to. -/
def resumeCalls
    (engine : AgentEngine)
    (context : AgentContext)
    (target : ApprovalTarget) :
    EngineM BatchExecution :=
  match target.decision with
  | .approved =>
      executePlannedCalls engine context target.pending.step
        target.pending.pendingCalls true
  | .rejected =>
      pure (.executed
        (rejectedBatch target.pending.pendingCalls))

/- Record the resolution unless the token has one. -/
def recordResolution
    (target : ApprovalTarget)
    (metadata : Json) :
    EngineM Unit :=
  if target.alreadyResolved then pure ()
  else
    appendOrFail
      (.approvalResolution
        { resumeToken := target.pending.resumeToken
          decision := target.decision
          metadata := metadata })

/- An advance started by an approval. -/
def approvalStep
    (engine : AgentEngine)
    (context : AgentContext)
    (trigger : AgentTrigger)
    (resumeToken : ResumeToken)
    (decision : ApprovalDecision)
    (metadata : Json)
    (stepsExecuted consecutiveToolFailureSteps : Nat)
    (emittedEvents : List KernelEventRecord) :
    EngineM AdvanceResult := do
  match ← findApprovalTarget context resumeToken decision with
  | none =>
      finishAdvance engine context .policyAborted none
        (some "resume token not found") stepsExecuted none
        emittedEvents
  | some target =>
      recordResolution target metadata
      match ← resumeCalls engine context target with
      | .suspended _ _ _ =>
          finishAdvance engine context .policyAborted none
            (some "approval resume unexpectedly suspended")
            target.pending.step none emittedEvents
      | .executed batch =>
          let context ←
            recordResultsOrFail batch.results context
          performSingleStep engine context trigger
            (target.pending.step + 1)
            (consecutiveToolFailureSteps +
              (if batch.allFailed then 1 else 0))
            emittedEvents

------------------------------------------------------------
-- Advances
------------------------------------------------------------

/- The outcome already recorded under a request's key. -/
def findPriorOutcome :
    Option String → EngineM (Option EngineOutcome)
| none => pure none
| some key => do
    let answer ← Program.perform (Op.findOutcome key)
    match answer with
    | .ok found => pure found
    | .error _ => pure none

/- The cached projection with the trigger, or the ledger. -/
def loadTriggerSnapshot
    (trigger : TriggerRecord) :
    EngineM (Except MemoryError SessionSnapshot) := do
  let cached ← Program.perform Op.getProjection
  match cached with
  | some cached =>
      pure (.ok
        { cached with
          records := cached.records ++ [.trigger trigger] })
  | none => Program.perform Op.loadSession

/- The context an advance starts from. -/
def triggerContext
    (request : ProcessRequest)
    (triggerId : String)
    (snapshot : SessionSnapshot) :
    AgentContext where
  sessionId := request.sessionId
  records := snapshot.records
  priorToolResults := toolResults snapshot.records
  grantedScopes := request.grantedScopes
  metadata :=
    { triggerId := triggerId
      idempotencyKey := request.idempotencyKey
      policy := request.policy.withOverlay
        (activePolicyOverlay snapshot.records)
      provider := request.provider
      cancelled := request.cancelled }

/- The step of a trigger, once the planner has run. -/
def triggerStep
    (engine : AgentEngine)
    (request : ProcessRequest)
    (triggerId : String)
    (snapshot : SessionSnapshot) :
    EngineM AdvanceResult := do
  let emittedEvents :=
    deriveTriggerKernelEvents triggerId request.trigger
  let context ← persistKernelEvents emittedEvents
    (triggerContext request triggerId snapshot)
  let steps := currentStepCount snapshot.records
  let failures :=
    currentConsecutiveToolFailureSteps snapshot.records
  match request.trigger with
  | .approval resumeToken decision metadata =>
      approvalStep engine context request.trigger
        resumeToken decision metadata steps failures
        emittedEvents
  | _ =>
      performSingleStep engine context request.trigger steps
        failures emittedEvents

/- The advance of a trigger that has been recorded. -/
def processTrigger
    (engine : AgentEngine)
    (request : ProcessRequest)
    (trigger : TriggerRecord) :
    EngineM AdvanceResult := do
  match ← loadTriggerSnapshot trigger with
  | .error error =>
      pure (outcomeOnly
        (storageFailureOutcome trigger.triggerId 0 error) [])
  | .ok snapshot =>
      let _ ← append (.triggerIntent
        { triggerId := trigger.triggerId
          intent := classifyTriggerIntent engine.rendering
            request.trigger })
      let snapshot ← refreshSnapshot snapshot
      let snapshot ← runPlanner engine request snapshot
      triggerStep engine request trigger.triggerId snapshot

def advanceTrigger
    (engine : AgentEngine)
    (request : ProcessRequest) :
    EngineM AdvanceResult := do
  let triggerId ← newUuid
  match ← findPriorOutcome request.idempotencyKey with
  | some prior =>
      pure (outcomeOnly
        { prior with idempotentReplay := true } [])
  | none =>
      let trigger : TriggerRecord :=
        { triggerId := triggerId
          sessionId := request.sessionId
          idempotencyKey := request.idempotencyKey
          trigger := request.trigger
          intent := none }
      match ← append (.trigger trigger) with
      | .error error =>
          pure (outcomeOnly
            (storageFailureOutcome triggerId 0 error) [])
      | .ok _ => processTrigger engine request trigger

/- The context a continued trigger goes on in. -/
def continueContext
    (request : ContinueRequest)
    (trigger : TriggerRecord)
    (snapshot : SessionSnapshot) :
    AgentContext where
  sessionId := request.sessionId
  records := snapshot.records
  priorToolResults := toolResults snapshot.records
  grantedScopes := request.grantedScopes
  metadata :=
    { triggerId := trigger.triggerId
      idempotencyKey := trigger.idempotencyKey
      policy := request.policy.withOverlay
        (activePolicyOverlay snapshot.records)
      provider := request.provider
      cancelled := request.cancelled }

/- Resume an unfinished graph, then take the next step. -/
def resumeGraph
    (engine : AgentEngine)
    (context : AgentContext)
    (trigger : AgentTrigger)
    (graph : ToolExecutionGraph)
    (snapshot : SessionSnapshot) :
    EngineM AdvanceResult := do
  match ← executePlannedCalls engine context graph.step
      (graph.nodes.map ToolNode.toCall) true with
  | .executed batch =>
      let context ←
        recordResultsOrFail batch.results context
      performSingleStep engine context trigger
        (currentStepCount snapshot.records)
        (currentConsecutiveToolFailureSteps snapshot.records)
        []
  | .suspended _ _ _ =>
      finishAdvance engine context .policyAborted none
        (some "checkpointed graph unexpectedly suspended")
        graph.step none []

/- The outcome of a session with nothing to continue. -/
def nothingToContinue (triggerId : String) : EngineOutcome where
  triggerId := triggerId
  stopReason := .yielded
  response := none
  detail := some "no active trigger to continue"
  stepsExecuted := 0
  idempotentReplay := false
  resumeToken := none

/- Go on with the active trigger of a session. -/
def continueTrigger
    (engine : AgentEngine)
    (request : ContinueRequest)
    (trigger : TriggerRecord)
    (snapshot : SessionSnapshot) :
    EngineM AdvanceResult :=
  let context := continueContext request trigger snapshot
  match activeToolExecutionGraph snapshot.records with
  | some graph =>
      resumeGraph engine context trigger.trigger graph
        snapshot
  | none =>
      performSingleStep engine context trigger.trigger
        (currentStepCount snapshot.records)
        (currentConsecutiveToolFailureSteps snapshot.records)
        []

def advanceContinue
    (engine : AgentEngine)
    (request : ContinueRequest) :
    EngineM AdvanceResult := do
  let answer ← Program.perform Op.loadSession
  match answer with
  | .error error =>
      pure (outcomeOnly
        (storageFailureOutcome request.sessionId 0 error) [])
  | .ok snapshot =>
      match activeTrigger snapshot.records with
      | none =>
          let triggerId ← newUuid
          pure (outcomeOnly (nothingToContinue triggerId) [])
      | some trigger =>
          continueTrigger engine request trigger snapshot

def advance
    (engine : AgentEngine) :
    AdvanceRequest → EngineM AdvanceResult
| .trigger request => advanceTrigger engine request
| .continueWith request => advanceContinue engine request

end RainEngine
