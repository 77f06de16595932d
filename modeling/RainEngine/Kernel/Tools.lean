import RainEngine.Kernel.Host
import RainEngine.Kernel.Schema
import Mathlib.Data.List.Sort
import Mathlib.Logic.Function.Basic

/-
  This file defines how the kernel runs a batch of planned
  calls: the tool graph, its checkpoints, the gates in front
  of an executor, retries, and the scheduling loop.

  Key definitions include:
    * `SkillRegistry`
    * `AgentEngine`
    * `summarizeToolPerformance`
    * `existingOrNewGraph`
    * `readyNodes`
    * `skipBlockedNodes`
    * `prepareNode`
    * `runPreparedCall`
    * `runGraph`
    * `executePlannedCalls`
-/

namespace RainEngine

open Effects

------------------------------------------------------------
-- Registered Skills
------------------------------------------------------------

namespace RegisteredSkillBackend

def kind : RegisteredSkillBackend → SkillBackendKind
| .wasm _ => .wasm
| .native _ _ => .native

def executorKind : RegisteredSkillBackend → String
| .wasm executorKind => executorKind
| .native executorKind _ => executorKind

def requiresHumanApproval : RegisteredSkillBackend → Bool
| .wasm _ => false
| .native _ requiresHumanApproval => requiresHumanApproval

end RegisteredSkillBackend

def RegisteredSkill.definition
    (skill : RegisteredSkill) :
    SkillDefinition where
  manifest := skill.manifest
  executorKind := skill.backend.executorKind

/- The registered skills, at most one under each name. -/
structure SkillRegistry where
  entries : List RegisteredSkill
  nodup : (entries.map (·.manifest.name)).Nodup

namespace SkillRegistry

def get
    (skills : SkillRegistry)
    (name : String) :
    Option RegisteredSkill :=
  skills.entries.find? (·.manifest.name = name)

end SkillRegistry

/- The engine, as far as it is not part of the host. -/
structure AgentEngine where
  skills : SkillRegistry
  hasPlanner : Bool
  rendering : Rendering

------------------------------------------------------------
-- Tool Performance
------------------------------------------------------------

structure ToolPerformance where
  skillName : String
  backendKind : String
  calls : Nat
  successes : Nat
  failures : Nat

namespace ToolPerformance

/- The counts of a ledger are floats as they are. -/
def failureRate (performance : ToolPerformance) : F64 :=
  if performance.calls = 0 then .finite 0
  else .round (performance.failures / performance.calls)

def count
    (performance : ToolPerformance)
    (result : ToolResultRecord) :
    ToolPerformance :=
  { performance with
    calls := performance.calls + 1
    successes :=
      performance.successes + (if result.isOk then 1 else 0)
    failures :=
      performance.failures + (if result.isOk then 0 else 1) }

end ToolPerformance

/- The backend of the newest call record of a call id. -/
def callBackend
    (records : List SessionRecord)
    (callId : String) :
    String :=
  match (records.filterMap SessionRecord.asToolCall).findSomeRev?
      (fun call =>
        if call.callId = callId then some call else none) with
  | some call => call.backendKind.debug
  | none => "unknown"

/- Count a result for its skill. -/
def countToolResult
    (records : List SessionRecord)
    (groups : List ToolPerformance)
    (result : ToolResultRecord) :
    List ToolPerformance :=
  match groups with
  | [] =>
      [{ skillName := result.skillName
         backendKind := callBackend records result.callId
         calls := 1
         successes := if result.isOk then 1 else 0
         failures := if result.isOk then 0 else 1 }]
  | group :: rest =>
      if group.skillName = result.skillName then
        group.count result :: rest
      else group :: countToolResult records rest result

/- The results of a ledger, counted for each skill. -/
def summarizeToolPerformance
    (records : List SessionRecord) :
    List ToolPerformance :=
  (toolResults records).foldl (countToolResult records) []

namespace AgentEngine

def isSkillCircuitBroken
    (engine : AgentEngine)
    (skillName : String)
    (context : AgentContext) :
    Bool :=
  match (summarizeToolPerformance context.records).find?
      (·.skillName = skillName) with
  | none => false
  | some performance =>
      if 3 ≤ performance.calls then
        let threshold :=
          match engine.skills.get skillName with
          | some skill =>
              skill.manifest.circuitBreakerThreshold
          | none => .finite (1 / 2)
        threshold.le performance.failureRate
      else false

end AgentEngine

------------------------------------------------------------
-- Tool Graphs
------------------------------------------------------------

/- The node a planned call becomes. -/
def PlannedSkillCall.toNode
    (providerOrder : Nat)
    (call : PlannedSkillCall) :
    ToolNode where
  callId := call.callId
  skillName := call.name
  args := call.args
  priority := call.priority
  dependencies := call.dependsOn.map ToolDependency.mk
  retryPolicy := call.retryPolicy
  dryRun := call.dryRun
  providerOrder := providerOrder

/- The call a node of a stored graph stands for. -/
def ToolNode.toCall (node : ToolNode) : PlannedSkillCall where
  callId := node.callId
  name := node.skillName
  args := node.args
  priority := node.priority
  dependsOn := node.dependencies.map (·.callId)
  retryPolicy := node.retryPolicy
  dryRun := node.dryRun

def graphIdFor (triggerId : String) (step : Nat) : String :=
  triggerId ++ ":" ++ toString step

/- Whether a stored graph answers to a step and call ids. -/
def ToolExecutionGraph.answersTo
    (graph : ToolExecutionGraph)
    (step : Nat)
    (calls : List PlannedSkillCall) :
    Bool :=
  graph.step = step &&
    (graph.nodes.map (·.callId)).toFinset =
      (calls.map (·.callId)).toFinset

/- The graph a batch of calls gets when none is stored. -/
def newGraph
    (context : AgentContext)
    (step : Nat)
    (calls : List PlannedSkillCall) :
    ToolExecutionGraph where
  graphId := graphIdFor context.metadata.triggerId step
  triggerId := context.metadata.triggerId
  step := step
  nodes := calls.mapIdx PlannedSkillCall.toNode

def existingOrNewGraph
    (context : AgentContext)
    (step : Nat)
    (calls : List PlannedSkillCall) :
    ToolExecutionGraph :=
  match context.records.findSomeRev? (fun record =>
      record.asToolExecutionGraph.filter
        (·.answersTo step calls)) with
  | some graph => graph
  | none => newGraph context step calls

abbrev StatusMap : Type := String → Option ToolNodeStatus
abbrev AttemptMap : Type := String → Option Nat

/- The newest checkpoint status of each call of a graph. -/
def latestToolStatuses
    (context : AgentContext)
    (graphId : String) :
    StatusMap :=
  fun callId =>
    (context.records.filterMap
      SessionRecord.asToolNodeCheckpoint).findSomeRev?
        fun checkpoint =>
          if checkpoint.graphId = graphId ∧
              checkpoint.callId = callId then
            some checkpoint.status
          else none

/- The highest attempt among the started checkpoints. -/
def startedAttemptCounts
    (context : AgentContext)
    (graphId : String) :
    AttemptMap :=
  fun callId =>
    ((context.records.filterMap
      SessionRecord.asToolNodeCheckpoint).filter
        (fun checkpoint =>
          checkpoint.graphId = graphId ∧
            checkpoint.callId = callId ∧
            checkpoint.status = .started)).foldl
      (fun attempts checkpoint =>
        some (max (attempts.getD 0) checkpoint.attempt))
      none

def isTerminalStatus (status : Option ToolNodeStatus) : Bool :=
  status.any (·.isTerminal)

/- The scheduling order of two ready nodes. -/
def ToolNode.runsBefore (left right : ToolNode) : Prop :=
  right.priority < left.priority ∨
    (right.priority = left.priority ∧
      (left.providerOrder < right.providerOrder ∨
        (left.providerOrder = right.providerOrder ∧
          left.callId ≤ right.callId)))

instance
    (left right : ToolNode) :
    Decidable (left.runsBefore right) := by
  unfold ToolNode.runsBefore
  infer_instance

/- A node is ready when all its dependencies succeeded. -/
def ToolNode.isReady
    (status : StatusMap)
    (node : ToolNode) :
    Bool :=
  !isTerminalStatus (status node.callId) &&
    node.dependencies.all
      (fun dependency =>
        status dependency.callId = some .succeeded)

def readyNodes
    (graph : ToolExecutionGraph)
    (status : StatusMap) :
    List ToolNode :=
  (graph.nodes.filter (ToolNode.isReady status)).insertionSort
    ToolNode.runsBefore

def finalStatusForResult
    (result : ToolResultRecord) :
    ToolNodeStatus :=
  match result.output with
  | .ok _ => .succeeded
  | .error error =>
      if error.kind = .timeout then .timedOut else .failed

def resultDetail (result : ToolResultRecord) : Option String :=
  match result.output with
  | .ok _ => none
  | .error error => some error.message

def errorResult
    (callId skillName : String)
    (kind : SkillFailureKind)
    (message : String) :
    ToolResultRecord where
  callId := callId
  skillName := skillName
  output := .error { kind := kind, message := message }

------------------------------------------------------------
-- Checkpoints And Validations
------------------------------------------------------------

def appendToolCheckpoint
    (graph : ToolExecutionGraph)
    (node : ToolNode)
    (status : ToolNodeStatus)
    (attempt : Nat)
    (detail : Option String) :
    EngineM Unit := do
  let checkpointId ← newUuid
  appendOrFail
    (.toolNodeCheckpoint
      { checkpointId := checkpointId
        graphId := graph.graphId
        callId := node.callId
        skillName := node.skillName
        step := graph.step
        status := status
        attempt := attempt
        detail := detail })

def appendValidation
    (graph : ToolExecutionGraph)
    (node : ToolNode)
    (valid : Bool)
    (errors : List String) :
    EngineM Unit := do
  let validationId ← newUuid
  appendOrFail
    (.skillInputValidation
      { validationId := validationId
        graphId := graph.graphId
        callId := node.callId
        skillName := node.skillName
        valid := valid
        errors := errors })

/- Queue the nodes of a new graph. -/
def queueNodes
    (graph : ToolExecutionGraph) :
    List ToolNode → EngineM Unit
| [] => pure ()
| node :: rest => do
    appendToolCheckpoint graph node .queued 0 none
    queueNodes graph rest

------------------------------------------------------------
-- Preparing A Node
------------------------------------------------------------

structure PreparedCall where
  callId : String
  name : String
  args : Json
  manifest : SkillManifest
  backend : RegisteredSkillBackend
  contextSnapshot : AgentContextSnapshot
  dryRun : Bool
  retryPolicy : RetryPolicy

/- What a prepared call hands to its executor. -/
def PreparedCall.invocation
    (prepared : PreparedCall) :
    SkillInvocation where
  callId := prepared.callId
  manifest := prepared.manifest
  args := prepared.args
  context := prepared.contextSnapshot
  dryRun := prepared.dryRun

inductive PreparedNode where
  | executable (call : PreparedCall)
  | immediate (result : ToolResultRecord)

/- Fail a node before its executor is reached. -/
def rejectNode
    (graph : ToolExecutionGraph)
    (node : ToolNode)
    (kind : SkillFailureKind)
    (message : String) :
    EngineM PreparedNode := do
  appendToolCheckpoint graph node .failed 0 (some message)
  pure (.immediate
    (errorResult node.callId node.skillName kind message))

/- The retry policy a call runs under. -/
def callRetryPolicy
    (policy : EnginePolicy)
    (resourcePolicy : ResourcePolicy)
    (node : ToolNode) :
    RetryPolicy :=
  { node.retryPolicy.policy with
    maxAttempts :=
      (node.retryPolicy.policy.maxAttempts.min
        resourcePolicy.retryPolicy.maxAttempts).min
          policy.maxToolRetriesPerStep }

/- The manifest with the limits the engine puts on it. -/
def SkillManifest.withEffectivePolicy
    (manifest : SkillManifest)
    (policy : EnginePolicy) :
    SkillManifest :=
  { manifest with
    resourcePolicy := manifest.effectiveResourcePolicy policy }

/- Start a node that has passed every gate. -/
def startNode
    (context : AgentContext)
    (graph : ToolExecutionGraph)
    (node : ToolNode)
    (skill : RegisteredSkill)
    (step attempt : Nat) :
    EngineM PreparedNode := do
  appendToolCheckpoint graph node .started attempt none
  appendOrFail
    (.toolCall
      { callId := node.callId
        step := step
        skillName := skill.manifest.name
        args := node.args
        backendKind := skill.backend.kind })
  let policy := context.metadata.policy
  let manifest := skill.manifest.withEffectivePolicy policy
  pure (.executable
    { callId := node.callId
      name := node.skillName
      args := node.args
      manifest := manifest
      backend := skill.backend
      contextSnapshot := context.toSnapshot step
      dryRun := node.dryRun
      retryPolicy :=
        callRetryPolicy policy manifest.resourcePolicy node })

/-
  The gates after argument validation: scopes, native skills,
  dry runs and the circuit breaker.
-/
def guardNode
    (engine : AgentEngine)
    (context : AgentContext)
    (graph : ToolExecutionGraph)
    (node : ToolNode)
    (skill : RegisteredSkill)
    (step : Nat)
    (attempts : AttemptMap) :
    EngineM (PreparedNode × AttemptMap) := do
  let policy := context.metadata.policy
  appendToolCheckpoint graph node .validated 0 none
  if !skill.manifest.requiredScopes.all
      (· ∈ context.grantedScopes) then
    let rejected ← rejectNode graph node .permissionDenied
      ("missing required scopes for skill `" ++
        node.skillName ++ "`")
    pure (rejected, attempts)
  else if skill.backend.kind = .native ∧
      !policy.allowNativeSkills then
    let rejected ← rejectNode graph node .permissionDenied
      "native skills are disabled by policy"
    pure (rejected, attempts)
  else if node.dryRun ∧ (!policy.enableToolDryRun ∨
      !(skill.manifest.effectiveResourcePolicy
        policy).dryRunSupported) then
    let rejected ← rejectNode graph node .capabilityDenied
      "dry-run execution is not enabled for this skill"
    pure (rejected, attempts)
  else if engine.isSkillCircuitBroken node.skillName
      context then
    let rejected ← rejectNode graph node .capabilityDenied
      ("circuit breaker tripped for skill `" ++
        node.skillName ++ "`")
    pure (rejected, attempts)
  else
    let attempt := (attempts node.callId).getD 0 + 1
    let started ←
      startNode context graph node skill step attempt
    pure (started,
      Function.update attempts node.callId (some attempt))

def prepareNode
    (engine : AgentEngine)
    (context : AgentContext)
    (graph : ToolExecutionGraph)
    (node : ToolNode)
    (step : Nat)
    (attempts : AttemptMap) :
    EngineM (PreparedNode × AttemptMap) := do
  match engine.skills.get node.skillName with
  | none =>
      let message :=
        "skill `" ++ node.skillName ++ "` is not registered"
      appendValidation graph node false [message]
      let rejected ←
        rejectNode graph node .internal message
      pure (rejected, attempts)
  | some skill =>
      if context.metadata.policy.validateToolArgs then
        let errors := validateAgainstSchema node.args
          skill.manifest.inputSchema
        appendValidation graph node errors.isEmpty errors
        if !errors.isEmpty then
          let rejected ←
            rejectNode graph node .invalidArguments
              ("; ".intercalate errors)
          pure (rejected, attempts)
        else
          guardNode engine context graph node skill step
            attempts
      else
        guardNode engine context graph node skill step
          attempts

------------------------------------------------------------
-- Running A Prepared Call
------------------------------------------------------------

def isRetryableSkillError :
    Except SkillExecutionError Json → Bool
| .error error =>
    error.kind = .timeout || error.kind = .internal ||
      error.kind = .trap
| .ok _ => false

/- The wait before the attempt after the next one. -/
def nextInterval (policy : RetryPolicy) (current : Nat) : Nat :=
  (((F64.ofNat current).mul policy.backoffMultiplier).toU64).min
    policy.maxIntervalMs

/- Run the executor until it succeeds or retries end. -/
def runAttempts
    (prepared : PreparedCall) :
    Nat → Nat → Except SkillExecutionError Json →
      EngineM (Except String
        (Except SkillExecutionError Json))
| 0, _, output => pure (.ok output)
| remaining + 1, interval, _ => do
    let answer ← Program.perform
      (Op.execute prepared.backend prepared.invocation)
    match answer with
    | .panicked joinError => pure (.error joinError)
    | .returned output =>
        if output.isOk ∨ !isRetryableSkillError output ∨
            remaining = 0 then
          pure (.ok output)
        else
          let _ ← Program.perform (Op.sleep interval)
          runAttempts prepared remaining
            (nextInterval prepared.retryPolicy interval)
            output

/-
  A tool task. It runs from the moment it is spawned and does
  not touch the ledger.
-/
def runPreparedCall
    (prepared : PreparedCall) :
    EngineM ToolTask := do
  let output ← runAttempts prepared
    prepared.retryPolicy.maxAttempts
    prepared.retryPolicy.initialIntervalMs
    (.error
      { kind := .internal
        message := "tool was not attempted" })
  match output with
  | .error joinError => pure (.error joinError)
  | .ok output =>
      pure (.ok
        { callId := prepared.callId
          skillName := prepared.name
          output :=
            match output with
            | .ok value => .ok value
            | .error error =>
                .error
                  { kind := error.kind
                    message := error.message } })

------------------------------------------------------------
-- The Scheduling Loop
------------------------------------------------------------

/- What the loop knows about the calls of the graph. -/
structure BatchState where
  status : StatusMap
  attempts : AttemptMap
  newResults : List ToolResultRecord

namespace BatchState

/- Take note of the result of a call. -/
def record
    (state : BatchState)
    (callId : String)
    (status : ToolNodeStatus)
    (result : ToolResultRecord) :
    BatchState :=
  { state with
    status := Function.update state.status callId (some status)
    newResults := state.newResults ++ [result] }

end BatchState

/- The first dependency that ended without success. -/
def blockingDependency
    (status : StatusMap)
    (node : ToolNode) :
    Option ToolDependency :=
  node.dependencies.find? fun dependency =>
    status dependency.callId = some .failed ∨
      status dependency.callId = some .skipped ∨
      status dependency.callId = some .timedOut

/- Skip every node that a failed dependency blocks. -/
def skipBlockedNodes
    (graph : ToolExecutionGraph) :
    List ToolNode → BatchState → Bool →
      EngineM (BatchState × Bool)
| [], state, changed => pure (state, changed)
| node :: rest, state, changed =>
    if isTerminalStatus (state.status node.callId) then
      skipBlockedNodes graph rest state changed
    else
      match blockingDependency state.status node with
      | none => skipBlockedNodes graph rest state changed
      | some blockedBy => do
          let message := "dependency `" ++
            blockedBy.callId ++ "` did not succeed"
          appendToolCheckpoint graph node .skipped 0
            (some message)
          skipBlockedNodes graph rest
            (state.record node.callId .skipped
              (errorResult node.callId node.skillName
                .internal message))
            true

/- Prepare the nodes of a wave and spawn their tasks. -/
def prepareWave
    (engine : AgentEngine)
    (context : AgentContext)
    (graph : ToolExecutionGraph)
    (step : Nat) :
    List ToolNode → BatchState → List ToolTask →
      EngineM (BatchState × List ToolTask)
| [], state, tasks => pure (state, tasks)
| node :: rest, state, tasks => do
    let (prepared, attempts) ←
      prepareNode engine context graph node step
        state.attempts
    let state := { state with attempts := attempts }
    match prepared with
    | .executable call =>
        let task ← runPreparedCall call
        prepareWave engine context graph step rest state
          (tasks ++ [task])
    | .immediate result =>
        prepareWave engine context graph step rest
          (state.record node.callId
            (finalStatusForResult result) result)
          tasks

/- Join the tasks of a wave in the order they finish. -/
def joinTasks
    (graph : ToolExecutionGraph) :
    List ToolTask → BatchState → EngineM BatchState
| [], state => pure state
| .error joinError :: _, _ => .throw (.blob joinError)
| .ok result :: rest, state =>
    match graph.nodes.find? (·.callId = result.callId) with
    | none => joinTasks graph rest state
    | some node => do
        let status := finalStatusForResult result
        appendToolCheckpoint graph node status
          ((state.attempts node.callId).getD 1)
          (resultDetail result)
        joinTasks graph rest
          (state.record node.callId status result)

/- How many nodes of a wave may run at once. -/
def maxParallel (policy : EnginePolicy) : Nat :=
  (policy.maxParallelSkillCalls.max 1).min
    (policy.maxReadyToolNodes.max 1)

/- The nodes of the next wave. -/
def nextWave
    (policy : EnginePolicy)
    (graph : ToolExecutionGraph)
    (status : StatusMap) :
    List ToolNode :=
  (readyNodes graph status).take (policy.maxReadyToolNodes.max 1)

/-
  The loop over the waves of a graph. Each round makes a call
  terminal or is the last one, so one round more than there
  are nodes is enough fuel.
-/
def runGraph
    (engine : AgentEngine)
    (context : AgentContext)
    (graph : ToolExecutionGraph)
    (step : Nat) :
    Nat → BatchState → EngineM BatchState
| 0, _ => .request .outOfFuel nofun
| fuel + 1, state => do
    let (state, skipped) ←
      skipBlockedNodes graph graph.nodes state false
    let policy := context.metadata.policy
    let ready := nextWave policy graph state.status
    if ready.isEmpty then
      if skipped then
        runGraph engine context graph step fuel state
      else pure state
    else
      let (state, tasks) ←
        prepareWave engine context graph step
          (ready.take (maxParallel policy)) state []
      let finished ←
        Program.perform (Op.completions tasks)
      let state ← joinTasks graph finished state
      runGraph engine context graph step fuel state

------------------------------------------------------------
-- Batches
------------------------------------------------------------

structure ExecutedBatch where
  results : List ToolResultRecord
  allFailed : Bool

inductive BatchExecution where
  | executed (batch : ExecutedBatch)
  | suspended (reason : SuspendReason)
      (pendingCalls : List PlannedSkillCall)
      (resumeToken : ResumeToken)

/- The calls of a batch that wait for a human. -/
def approvalCalls
    (engine : AgentEngine)
    (calls : List PlannedSkillCall) :
    List String :=
  calls.filterMap fun call =>
    match engine.skills.get call.name with
    | some skill =>
        if skill.backend.requiresHumanApproval then
          some call.name
        else none
    | none => none

/- Store the graph of a batch unless its id is in use. -/
def storeGraph
    (context : AgentContext)
    (graph : ToolExecutionGraph) :
    EngineM Unit :=
  if context.records.any (fun record =>
      record.asToolExecutionGraph.any
        (·.graphId = graph.graphId)) then
    pure ()
  else do
    appendOrFail (.toolExecutionGraph graph)
    queueNodes graph graph.nodes

/- The new results, in the order of the graph's nodes. -/
def orderedResults
    (graph : ToolExecutionGraph)
    (newResults : List ToolResultRecord) :
    List ToolResultRecord :=
  graph.nodes.filterMap fun node =>
    newResults.find? (·.callId = node.callId)

/- Run the graph of a batch to its end. -/
def executeGraph
    (engine : AgentEngine)
    (context : AgentContext)
    (graph : ToolExecutionGraph)
    (step : Nat) :
    EngineM ExecutedBatch := do
  let final ← runGraph engine context graph step
    (graph.nodes.length + 1)
    { status := latestToolStatuses context graph.graphId
      attempts := startedAttemptCounts context graph.graphId
      newResults := [] }
  let ordered := orderedResults graph final.newResults
  pure
    { results := ordered
      allFailed := !ordered.any (·.isOk) }

def executePlannedCalls
    (engine : AgentEngine)
    (context : AgentContext)
    (step : Nat)
    (calls : List PlannedSkillCall)
    (approvalOverride : Bool) :
    EngineM BatchExecution := do
  let waiting := approvalCalls engine calls
  if !approvalOverride ∧ waiting ≠ [] then
    let resumeToken ← newUuid
    pure (.suspended
      (.humanApprovalRequired waiting) calls resumeToken)
  else
    let graph := existingOrNewGraph context step calls
    storeGraph context graph
    let batch ← executeGraph engine context graph step
    pure (.executed batch)

end RainEngine
