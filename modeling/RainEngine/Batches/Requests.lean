import RainEngine.Kernel.HostRules
import RainEngine.Kernel.Tools

/-
  This file says once what a batch of tool calls asks of the
  host: checkpoints, validations and call records for nodes of
  its graph, and runs of the executors of nodes that have
  passed every gate.

  Key definitions include:
    * `PassesGates`
    * `Runnable`
    * `PreparedFor`
    * `BatchRequest`
    * `AllowsNode`
    * `Op.Idle`

  Key theorems include:
    * `AllowsNode.prepareNode`
    * `uses_prepareNode`
    * `uses_runPreparedCall`
-/

namespace RainEngine

open Effects

------------------------------------------------------------
-- Gates
------------------------------------------------------------

/- The gates a node passes before it is started. -/
structure PassesGates
    (engine : AgentEngine)
    (context : AgentContext)
    (node : ToolNode)
    (skill : RegisteredSkill) : Prop where
  registered : engine.skills.get node.skillName = some skill
  argsValid :
    context.metadata.policy.validateToolArgs = true →
      validateAgainstSchema node.args
        skill.manifest.inputSchema = []
  scopesGranted :
    ∀ scope ∈ skill.manifest.requiredScopes,
      scope ∈ context.grantedScopes
  nativeAllowed :
    skill.backend.kind = .native →
      context.metadata.policy.allowNativeSkills = true
  dryRunAllowed :
    node.dryRun = true →
      context.metadata.policy.enableToolDryRun = true ∧
        (skill.manifest.effectiveResourcePolicy
          context.metadata.policy).dryRunSupported = true
  breakerClosed :
    engine.isSkillCircuitBroken node.skillName context = false

/- A call prepared for a node that passes every gate. -/
structure PreparedFor
    (engine : AgentEngine)
    (context : AgentContext)
    (node : ToolNode)
    (prepared : PreparedCall) : Prop where
  gates :
    ∃ skill, PassesGates engine context node skill ∧
      prepared.backend = skill.backend ∧
      prepared.manifest =
        skill.manifest.withEffectivePolicy
          context.metadata.policy ∧
      prepared.retryPolicy =
        callRetryPolicy context.metadata.policy
          (skill.manifest.effectiveResourcePolicy
            context.metadata.policy) node
  callId : prepared.callId = node.callId
  name : prepared.name = node.skillName
  args : prepared.args = node.args
  dryRun : prepared.dryRun = node.dryRun

/- A node that passes the gates with an attempt left to it. -/
def Runnable
    (engine : AgentEngine)
    (context : AgentContext)
    (node : ToolNode) :
    Prop :=
  ∃ skill, PassesGates engine context node skill ∧
    (callRetryPolicy context.metadata.policy
      (skill.manifest.effectiveResourcePolicy
        context.metadata.policy) node).maxAttempts ≠ 0

/- What the kernel makes of a node before it may run. -/
inductive PreparedNode.IsFor
    (engine : AgentEngine)
    (context : AgentContext)
    (node : ToolNode) :
    PreparedNode → Prop where
  | executable {prepared : PreparedCall}
      (hPrepared : PreparedFor engine context node prepared) :
      IsFor engine context node (.executable prepared)
  | immediate
      {kind : SkillFailureKind}
      (message : String)
      (hKind : kind ≠ .timeout)
      (hRejected :
        ∀ skill, ¬PassesGates engine context node skill) :
      IsFor engine context node
        (.immediate
          (errorResult node.callId node.skillName
            kind message))

/-
  A task that reports on a call, unless it has panicked. A
  call that may not be attempted has no success.
-/
structure TaskResult
    (engine : AgentEngine)
    (context : AgentContext)
    (node : ToolNode)
    (result : ToolResultRecord) : Prop where
  callId : result.callId = node.callId
  skillName : result.skillName = node.skillName
  attempted :
    result.isOk = true → Runnable engine context node

def TaskFor
    (engine : AgentEngine)
    (context : AgentContext)
    (node : ToolNode)
    (task : ToolTask) :
    Prop :=
  ∀ result, task = .ok result →
    TaskResult engine context node result

------------------------------------------------------------
-- Requests
------------------------------------------------------------

/- What a batch may ask for on behalf of its graph. -/
inductive BatchRequest
    (engine : AgentEngine)
    (context : AgentContext)
    (graph : ToolExecutionGraph) :
    Op → Prop where
  | newUuid : BatchRequest engine context graph .newUuid
  | sleep (ms : Nat) :
      BatchRequest engine context graph (.sleep ms)
  | completions (tasks : List ToolTask) :
      BatchRequest engine context graph (.completions tasks)
  | checkpoint
      {node : ToolNode}
      {record : ToolNodeCheckpointRecord}
      (hNode : node ∈ graph.nodes)
      (hGraph : record.graphId = graph.graphId)
      (hCall : record.callId = node.callId) :
      BatchRequest engine context graph
        (.append (.toolNodeCheckpoint record))
  | validation
      {node : ToolNode}
      {record : SkillInputValidationRecord}
      (hNode : node ∈ graph.nodes)
      (hGraph : record.graphId = graph.graphId)
      (hCall : record.callId = node.callId) :
      BatchRequest engine context graph
        (.append (.skillInputValidation record))
  | toolCall
      {node : ToolNode}
      {record : ToolCallRecord}
      (hNode : node ∈ graph.nodes)
      (hCall : record.callId = node.callId)
      (hArgs : record.args = node.args) :
      BatchRequest engine context graph
        (.append (.toolCall record))
  | execute
      {node : ToolNode}
      {prepared : PreparedCall}
      (hNode : node ∈ graph.nodes)
      (hPrepared : PreparedFor engine context node prepared) :
      BatchRequest engine context graph
        (.execute prepared.backend prepared.invocation)

------------------------------------------------------------
-- Footprints Of A Node
------------------------------------------------------------

/- What a footprint allows while a node is prepared. -/
structure AllowsNode
    (S : Op → Prop)
    (engine : AgentEngine)
    (context : AgentContext)
    (graph : ToolExecutionGraph)
    (node : ToolNode) : Prop where
  uuid : S .newUuid
  validation :
    ∀ record : SkillInputValidationRecord,
      record.graphId = graph.graphId →
        record.callId = node.callId →
          S (.append (.skillInputValidation record))
  undecided :
    ∀ record : ToolNodeCheckpointRecord,
      record.graphId = graph.graphId →
        record.callId = node.callId →
          record.status.isTerminal = false →
            S (.append (.toolNodeCheckpoint record))
  rejected :
    ∀ record : ToolNodeCheckpointRecord,
      record.graphId = graph.graphId →
        record.callId = node.callId →
          record.status = .failed →
            (∀ skill,
              ¬PassesGates engine context node skill) →
              S (.append (.toolNodeCheckpoint record))
  toolCall :
    ∀ record : ToolCallRecord,
      record.callId = node.callId →
        record.args = node.args →
          S (.append (.toolCall record))

section Node

variable {S : Op → Prop}
variable {engine : AgentEngine}
variable {context : AgentContext}
variable {graph : ToolExecutionGraph}
variable {node : ToolNode}

/- A checkpoint asks for an identifier and one append. -/
theorem uses_checkpoint
    {V : Unit → Prop}
    {status : ToolNodeStatus}
    {attempt : Nat}
    {detail : Option String}
    (hUuid : S .newUuid)
    (hRecord : ∀ record : ToolNodeCheckpointRecord,
      record.graphId = graph.graphId →
        record.callId = node.callId →
          record.status = status →
            S (.append (.toolNodeCheckpoint record)))
    (hValue : V ()) :
    Uses S V
      (appendToolCheckpoint graph node status attempt
        detail) :=
  ⟨hUuid, fun _ =>
    uses_appendOrFail (hRecord _ rfl rfl rfl) hValue⟩

namespace AllowsNode

variable (hAllows : AllowsNode S engine context graph node)

include hAllows

theorem appendValidation
    {V : Unit → Prop}
    {valid : Bool}
    {errors : List String}
    (hValue : V ()) :
    Uses S V (appendValidation graph node valid errors) :=
  ⟨hAllows.uuid, fun _ =>
    uses_appendOrFail (hAllows.validation _ rfl rfl) hValue⟩

theorem rejectNode
    {kind : SkillFailureKind}
    {message : String}
    (hKind : kind ≠ .timeout)
    (hRejected :
      ∀ skill, ¬PassesGates engine context node skill) :
    Uses S (PreparedNode.IsFor engine context node)
      (rejectNode graph node kind message) := by
  unfold RainEngine.rejectNode
  rw [Uses.bind_iff]
  apply uses_checkpoint hAllows.uuid
  · intro record hGraph hCall hStatus
    exact hAllows.rejected record hGraph hCall hStatus
      hRejected
  · exact .immediate message hKind hRejected

theorem startNode
    {skill : RegisteredSkill}
    {step attempt : Nat}
    (hGates : PassesGates engine context node skill) :
    Uses S (PreparedNode.IsFor engine context node)
      (startNode context graph node skill step attempt) := by
  unfold RainEngine.startNode
  rw [Uses.bind_iff]
  apply uses_checkpoint hAllows.uuid
  · intro record hGraph hCall hStatus
    exact hAllows.undecided record hGraph hCall
      (by rw [hStatus]; rfl)
  · rw [Uses.bind_iff]
    apply uses_appendOrFail (hAllows.toolCall _ rfl rfl)
    apply PreparedNode.IsFor.executable
    exact
      { gates := ⟨skill, hGates, rfl, rfl, rfl⟩
        callId := rfl
        name := rfl
        args := rfl
        dryRun := rfl }

/-
  A node that reaches its executor has passed every gate; the
  arguments were checked before.
-/
theorem guardNode
    {skill : RegisteredSkill}
    {step : Nat}
    {attempts : AttemptMap}
    (hSkill : engine.skills.get node.skillName = some skill)
    (hArgs :
      context.metadata.policy.validateToolArgs = true →
        validateAgainstSchema node.args
          skill.manifest.inputSchema = []) :
    Uses S
      (fun r => PreparedNode.IsFor engine context node r.1)
      (guardNode engine context graph node skill step
        attempts) := by
  -- a node has at most one skill to pass the gates with
  have hOnly : ∀ other,
      PassesGates engine context node other →
        PassesGates engine context node skill := by
    intro other hGates
    have hSame := hGates.registered.symm.trans hSkill
    cases hSame
    exact hGates
  unfold RainEngine.guardNode
  rw [Uses.bind_iff]
  apply uses_checkpoint hAllows.uuid
  · intro record hGraph hCall hStatus
    exact hAllows.undecided record hGraph hCall
      (by rw [hStatus]; rfl)
  split
  · rename_i hScopes
    rw [Uses.bind_iff]
    refine hAllows.rejectNode nofun ?_
    intro other hGates
    have hGranted := (hOnly other hGates).scopesGranted
    simp at hScopes
    rcases hScopes with ⟨scope, hRequired, hMissing⟩
    exact hMissing (hGranted scope hRequired)
  · rename_i hScopes
    split
    · rename_i hNative
      rw [Uses.bind_iff]
      refine hAllows.rejectNode nofun ?_
      intro other hGates
      have hAllowed :=
        (hOnly other hGates).nativeAllowed hNative.1
      simp [hAllowed] at hNative
    · rename_i hNative
      split
      · rename_i hDry
        rw [Uses.bind_iff]
        refine hAllows.rejectNode nofun ?_
        intro other hGates
        rcases (hOnly other hGates).dryRunAllowed hDry.1 with
          ⟨hEnabled, hSupported⟩
        simp [hEnabled, hSupported] at hDry
      · rename_i hDry
        split
        · rename_i hBroken
          rw [Uses.bind_iff]
          refine hAllows.rejectNode nofun ?_
          intro other hGates
          have hClosed := hGates.breakerClosed
          rw [hBroken] at hClosed
          cases hClosed
        · rename_i hBroken
          rw [Uses.bind_iff]
          refine hAllows.startNode ⟨hSkill, hArgs, ?_, ?_,
            ?_, ?_⟩
          · simpa using hScopes
          · intro hKind
            simpa [hKind] using hNative
          · intro hDryRun
            simpa [hDryRun] using hDry
          · simpa using hBroken

theorem prepareNode
    {step : Nat}
    {attempts : AttemptMap} :
    Uses S
      (fun r => PreparedNode.IsFor engine context node r.1)
      (prepareNode engine context graph node step
        attempts) := by
  unfold RainEngine.prepareNode
  split
  · rename_i hNone
    rw [Uses.bind_iff]
    apply hAllows.appendValidation
    rw [Uses.bind_iff]
    refine hAllows.rejectNode nofun ?_
    intro skill hGates
    have hSome := hGates.registered
    rw [hNone] at hSome
    cases hSome
  · rename_i skill hSkill
    split
    · rename_i hValidate
      rw [Uses.bind_iff]
      apply hAllows.appendValidation
      split
      · rename_i hErrors
        rw [Uses.bind_iff]
        refine hAllows.rejectNode nofun ?_
        intro other hGates
        have hSame := hGates.registered.symm.trans hSkill
        cases hSame
        have hValid := hGates.argsValid hValidate
        simp [hValid] at hErrors
      · rename_i hErrors
        apply hAllows.guardNode hSkill
        intro _
        simpa using hErrors
    · rename_i hValidate
      apply hAllows.guardNode hSkill
      intro hTrue
      exact absurd hTrue hValidate

end AllowsNode

theorem uses_appendToolCheckpoint
    {V : Unit → Prop}
    {status : ToolNodeStatus}
    {attempt : Nat}
    {detail : Option String}
    (hNode : node ∈ graph.nodes)
    (hValue : V ()) :
    Uses (BatchRequest engine context graph) V
      (appendToolCheckpoint graph node status attempt
        detail) :=
  uses_checkpoint .newUuid
    (fun _ hGraph hCall _ => .checkpoint hNode hGraph hCall)
    hValue

theorem uses_queueNodes
    {nodes : List ToolNode}
    (hNodes : ∀ node ∈ nodes, node ∈ graph.nodes) :
    Uses (BatchRequest engine context graph) (fun _ => True)
      (queueNodes graph nodes) := by
  induction nodes with
  | nil => trivial
  | cons node rest ih =>
      unfold queueNodes
      rw [Uses.bind_iff]
      apply uses_appendToolCheckpoint (hNodes node (by simp))
      exact ih (fun n hMem => hNodes n (by simp [hMem]))

theorem uses_prepareNode
    {step : Nat}
    {attempts : AttemptMap}
    (hNode : node ∈ graph.nodes) :
    Uses (BatchRequest engine context graph)
      (fun r => PreparedNode.IsFor engine context node r.1)
      (prepareNode engine context graph node step attempts) :=
  AllowsNode.prepareNode
    { uuid := .newUuid
      validation := fun _ => .validation hNode
      undecided := fun _ hGraph hCall _ =>
        .checkpoint hNode hGraph hCall
      rejected := fun _ hGraph hCall _ _ =>
        .checkpoint hNode hGraph hCall
      toolCall := fun _ => .toolCall hNode }

end Node

------------------------------------------------------------
-- Requests That Decide Nothing
------------------------------------------------------------

/- A request to an executor. -/
def Op.Executes : Op → Prop
| .execute _ _ => True
| _ => False

/- A request to record that a call has ended. -/
def Op.Decides : Op → Prop
| .append (.toolNodeCheckpoint checkpoint) =>
    checkpoint.status.isTerminal = true
| _ => False

/- A request that runs nothing and ends no call. -/
def Op.Idle (op : Op) : Prop :=
  ¬op.Executes ∧ ¬op.Decides

theorem idle_queued
    {graph : ToolExecutionGraph}
    {node : ToolNode} :
    Uses Op.Idle (fun _ => True)
      (appendToolCheckpoint graph node .queued 0 none) :=
  uses_checkpoint ⟨id, id⟩
    (fun _ _ _ hStatus => ⟨id, by simp [Op.Decides, hStatus,
      ToolNodeStatus.isTerminal]⟩) trivial

------------------------------------------------------------
-- Footprints Of A Tool Task
------------------------------------------------------------

section Tasks

variable {S : Op → Prop}
variable {prepared : PreparedCall}

/- A task runs its executor and waits, nothing else. -/
theorem uses_runAttempts
    {output : Except SkillExecutionError Json}
    {remaining interval : Nat}
    (hExecute :
      S (.execute prepared.backend prepared.invocation))
    (hSleep : ∀ ms, S (.sleep ms)) :
    Uses S (fun final => remaining = 0 → final = .ok output)
      (runAttempts prepared remaining interval output) := by
  induction remaining generalizing interval output with
  | zero =>
      intro _
      rfl
  | succ remaining ih =>
      refine ⟨hExecute, ?_⟩
      intro answer
      cases answer with
      | panicked joinError => nofun
      | returned result =>
          show Uses _ _ (if _ then _ else _)
          split
          · nofun
          · refine ⟨hSleep interval, fun _ => ?_⟩
            exact Uses.mono (fun _ h => h) (fun _ _ => nofun)
              ih

/- A prepared call has an attempt if its node is runnable. -/
theorem PreparedFor.attempts_ne_zero_iff
    {engine : AgentEngine}
    {context : AgentContext}
    {node : ToolNode}
    (hPrepared : PreparedFor engine context node prepared) :
    prepared.retryPolicy.maxAttempts ≠ 0 ↔
      Runnable engine context node := by
  rcases hPrepared.gates with ⟨skill, hGates, _, _, hRetry⟩
  rw [hRetry]
  constructor
  · intro hAttempts
    exact ⟨skill, hGates, hAttempts⟩
  · rintro ⟨other, hOther, hAttempts⟩
    have hSame :=
      hOther.registered.symm.trans hGates.registered
    cases hSame
    exact hAttempts

theorem uses_runPreparedCall
    {engine : AgentEngine}
    {context : AgentContext}
    {node : ToolNode}
    (hPrepared : PreparedFor engine context node prepared)
    (hExecute :
      S (.execute prepared.backend prepared.invocation))
    (hSleep : ∀ ms, S (.sleep ms)) :
    Uses S (TaskFor engine context node)
      (runPreparedCall prepared) := by
  unfold runPreparedCall
  refine Uses.bind (uses_runAttempts hExecute hSleep) ?_
  intro output hOutput
  cases output with
  | error joinError =>
      intro result hResult
      cases hResult
  | ok output =>
      intro result hResult
      cases hResult
      refine ⟨hPrepared.callId, hPrepared.name, ?_⟩
      intro hOk
      apply hPrepared.attempts_ne_zero_iff.mp
      intro hZero
      have hNone := hOutput hZero
      cases hNone
      cases hOk

end Tasks

end RainEngine
