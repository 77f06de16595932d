import RainEngine.Batches.Completion
import RainEngine.Wasm.Capabilities

/-
  This file is about the limits a WASM skill runs under. The
  engine puts the effective resource policy of a call into its
  invocation, but the executor takes its limits from its own
  copy of the manifest. Both agree exactly when the manifest
  is within the bounds that the engine would enforce, and has
  fuel.

  Key definitions include:
    * `WasmSkillExecutor.buildStore`
    * `RunsUnderEffective`
    * `WithinBounds`

  Key theorems include:
    * `runsUnderEffective_iff`
    * `executeGraph_limits_iff`
    * `skill_without_fuel_stopped`
-/

namespace RainEngine.Wasm

open Effects

------------------------------------------------------------
-- Limits Of An Executor
------------------------------------------------------------

/- A store that consumes fuel starts without any. -/
structure Store where
  memorySize : Nat
  fuel : Nat := 0

/- The store stops a guest that asks for more fuel. -/
def Store.Starves (store : Store) (fuelNeeded : Nat) : Prop :=
  store.fuel < fuelNeeded

structure WasmSkillExecutor where
  manifest : SkillManifest

namespace WasmSkillExecutor

def buildStore (executor : WasmSkillExecutor) : Store :=
  let store : Store :=
    { memorySize :=
        executor.manifest.resourcePolicy.maxMemoryBytes }
  match executor.manifest.resourcePolicy.maxFuel with
  | some fuel => { store with fuel := fuel }
  | none => store

/-
  The time an invocation has. Its task is given up a little
  later than that.
-/
def timeoutMs (executor : WasmSkillExecutor) : Nat :=
  executor.manifest.resourcePolicy.timeoutMs

def deadlineMs (executor : WasmSkillExecutor) : Nat :=
  executor.timeoutMs + 50

end WasmSkillExecutor

/-
  Every registration builds the executor with the manifest it
  registers the skill under.
-/
def executorOf (skill : RegisteredSkill) : WasmSkillExecutor where
  manifest := skill.manifest

/-
  The executor runs an invocation under the resource policy
  that the invocation carries: its timeout, within the bounds
  the engine sets, its memory and its fuel, and without fuel
  given no guest is stopped for lack of it.
-/
structure RunsUnderEffective
    (executor : WasmSkillExecutor)
    (policy : EnginePolicy)
    (invocation : SkillInvocation) : Prop where
  timeout :
    executor.timeoutMs =
      invocation.manifest.resourcePolicy.timeoutMs
  bounded :
    1 ≤ executor.timeoutMs ∧
      executor.timeoutMs ≤ policy.maxToolTimeoutMs
  memory :
    executor.buildStore.memorySize =
      invocation.manifest.resourcePolicy.maxMemoryBytes
  fuel :
    ∀ fuel,
      invocation.manifest.resourcePolicy.maxFuel = some fuel →
        executor.buildStore.fuel = fuel
  unfueled :
    invocation.manifest.resourcePolicy.maxFuel = none →
      ∀ fuelNeeded, ¬executor.buildStore.Starves fuelNeeded

/-
  A resource policy that the engine leaves as it is, and that
  gives fuel.
-/
structure WithinBounds
    (resources : ResourcePolicy)
    (policy : EnginePolicy) : Prop where
  timeout :
    1 ≤ resources.timeoutMs ∧
      resources.timeoutMs ≤ policy.maxToolTimeoutMs
  memory : 64 * 1024 ≤ resources.maxMemoryBytes
  fuel : resources.maxFuel ≠ none

section Limits

variable {skill : RegisteredSkill}
variable {policy : EnginePolicy}
variable {invocation : SkillInvocation}

theorem buildStore_memorySize
    (executor : WasmSkillExecutor) :
    executor.buildStore.memorySize =
      executor.manifest.resourcePolicy.maxMemoryBytes := by
  unfold WasmSkillExecutor.buildStore
  split <;> rfl

theorem buildStore_fuel
    (executor : WasmSkillExecutor) :
    executor.buildStore.fuel =
      executor.manifest.resourcePolicy.maxFuel.getD 0 := by
  unfold WasmSkillExecutor.buildStore
  split
  · rename_i fuel hFuel
    rw [hFuel]
    rfl
  · rename_i hNone
    rw [hNone]
    rfl

/-
  An executor keeps to the effective policy of its invocation
  exactly when its own manifest is within bounds.
-/
theorem runsUnderEffective_iff
    (hManifest :
      invocation.manifest =
        skill.manifest.withEffectivePolicy policy) :
    RunsUnderEffective (executorOf skill) policy invocation ↔
      WithinBounds skill.manifest.resourcePolicy policy := by
  have hTimeout :
      invocation.manifest.resourcePolicy.timeoutMs =
        min (max skill.manifest.resourcePolicy.timeoutMs 1)
          (max policy.maxToolTimeoutMs 1) := by
    rw [hManifest]
    rfl
  have hMemory :
      invocation.manifest.resourcePolicy.maxMemoryBytes =
        max skill.manifest.resourcePolicy.maxMemoryBytes
          (64 * 1024) := by
    rw [hManifest]
    rfl
  have hFuel :
      invocation.manifest.resourcePolicy.maxFuel =
        skill.manifest.resourcePolicy.maxFuel := by
    rw [hManifest]
    rfl
  constructor
  · intro hRuns
    constructor
    · exact hRuns.bounded
    · have hSame := hRuns.memory
      rw [buildStore_memorySize, hMemory] at hSame
      change skill.manifest.resourcePolicy.maxMemoryBytes =
        _ at hSame
      omega
    · intro hNone
      apply hRuns.unfueled (hFuel.trans hNone) 1
      unfold Store.Starves
      rw [buildStore_fuel]
      change skill.manifest.resourcePolicy.maxFuel.getD 0 < 1
      rw [hNone]
      exact Nat.zero_lt_one
  · intro hBounds
    rcases hBounds.timeout with ⟨hLow, hHigh⟩
    have hEnough := hBounds.memory
    constructor
    · rw [hTimeout]
      change skill.manifest.resourcePolicy.timeoutMs = _
      omega
    · exact hBounds.timeout
    · rw [buildStore_memorySize, hMemory]
      change skill.manifest.resourcePolicy.maxMemoryBytes = _
      omega
    · intro fuel hSome
      rw [hFuel] at hSome
      rw [buildStore_fuel]
      change skill.manifest.resourcePolicy.maxFuel.getD 0 = _
      rw [hSome]
      rfl
    · intro hNone
      exact absurd (hFuel.symm.trans hNone) hBounds.fuel

end Limits

/-
  What the engine hands to an executor: the manifest of the
  registered skill with the effective resource policy.
-/
theorem execute_invocation
    {engine : AgentEngine}
    {context : AgentContext}
    {graph : ToolExecutionGraph}
    {step : Nat}
    {w w' : World}
    {steps : List (Step Op Answer World)}
    {r : Option (Except EngineError ExecutedBatch)}
    {s : Step Op Answer World}
    {backend : RegisteredSkillBackend}
    {invocation : SkillInvocation}
    (hExec : Exec host w
      (executeGraph engine context graph step) steps w' r)
    (hMem : s ∈ steps)
    (hOp : s.op = .execute backend invocation) :
    ∃ node ∈ graph.nodes, ∃ skill,
      engine.skills.get node.skillName = some skill ∧
        skill.backend = backend ∧
        invocation.callId = node.callId ∧
        invocation.manifest =
          skill.manifest.withEffectivePolicy
            context.metadata.policy := by
  rcases (uses_executeGraph.exec hExec).1 s hMem with
    hFuel | hRequest
  · rw [hOp] at hFuel
    cases hFuel
  · rw [hOp] at hRequest
    generalize hExecuted :
      Op.execute backend invocation = op at hRequest
    cases hRequest with
    | @execute node prepared hNode hPrepared =>
        rcases hPrepared.gates with
          ⟨skill, hGates, hBackend, hManifest, _⟩
        rw [Op.execute.injEq] at hExecuted
        refine ⟨node, hNode, skill, hGates.registered, ?_, ?_,
          ?_⟩
        · rw [← hBackend, hExecuted.1]
        · rw [hExecuted.2]
          exact hPrepared.callId
        · rw [hExecuted.2]
          exact hManifest
    | _ => cases hExecuted

/-
  A WASM skill that the engine invokes runs under the limits
  of its invocation exactly when the manifest it is registered
  with is within bounds.
-/
theorem executeGraph_limits_iff
    (engine : AgentEngine)
    (context : AgentContext)
    (graph : ToolExecutionGraph)
    (step : Nat)
    (w : World)
    (steps : List (Step Op Answer World))
    (w' : World)
    (r : Option (Except EngineError ExecutedBatch))
    (hExec : Exec host w
      (executeGraph engine context graph step) steps w' r) :
    ∀ s ∈ steps, ∀ executorKind invocation,
      s.op = .execute (.wasm executorKind) invocation →
        ∃ node ∈ graph.nodes, ∃ skill,
          engine.skills.get node.skillName = some skill ∧
            skill.backend = .wasm executorKind ∧
            invocation.callId = node.callId ∧
            (RunsUnderEffective (executorOf skill)
                context.metadata.policy invocation ↔
              WithinBounds skill.manifest.resourcePolicy
                context.metadata.policy) := by
  intro s hMem executorKind invocation hOp
  rcases execute_invocation hExec hMem hOp with
    ⟨node, hNode, skill, hSkill, hBackend, hCall, hManifest⟩
  exact ⟨node, hNode, skill, hSkill, hBackend, hCall,
    runsUnderEffective_iff hManifest⟩

------------------------------------------------------------
-- A Skill Without Fuel
------------------------------------------------------------

namespace Sample

open RainEngine.Sample (manifest engine call callsFirst)

/- An engine whose skill is given no fuel. -/
def unfueledEngine : AgentEngine :=
  { engine with
    skills :=
      { entries :=
          [⟨{ manifest "echo" with
              resourcePolicy :=
                { ResourcePolicy.defaultForTools with
                  maxFuel := none } }, .wasm "wasm"⟩]
        nodup := by decide } }

def echoGraph : ToolExecutionGraph :=
  newGraph firstContext 0 [call "a" .null]

def echoRun (engine : AgentEngine) :
    List (Step Op Answer World) × World ×
      Option (Except EngineError ExecutedBatch) :=
  (callsFirst []).run
    (executeGraph engine firstContext echoGraph 0)
    (World.empty "session")

theorem echoRun_exec (engine : AgentEngine) :
    Exec host (World.empty "session")
      (executeGraph engine firstContext echoGraph 0)
      (echoRun engine).1 (echoRun engine).2.1
      (echoRun engine).2.2 :=
  (Script.run_exec _ _ _).of_restrict

/- The invocation of a WASM skill. -/
def wasmInvocation : Op → Option SkillInvocation
| .execute (.wasm _) invocation => some invocation
| _ => none

theorem op_of_wasmInvocation
    {op : Op}
    (hSome : (wasmInvocation op).isSome = true) :
    ∃ executorKind invocation,
      op = .execute (.wasm executorKind) invocation := by
  unfold wasmInvocation at hSome
  split at hSome
  · rename_i executorKind invocation
    exact ⟨executorKind, invocation, rfl⟩
  · cases hSome

end Sample

set_option maxRecDepth 100000 in
/- The condition where the executor of a plain skill is run. -/
theorem executeGraph_limits_plain :
    ((Sample.echoRun RainEngine.Sample.engine).1.any fun s =>
        (Sample.wasmInvocation s.op).isSome) = true ∧
      ∀ s ∈ (Sample.echoRun RainEngine.Sample.engine).1,
        ∀ executorKind invocation,
          s.op = .execute (.wasm executorKind) invocation →
            ∃ node ∈ Sample.echoGraph.nodes, ∃ skill,
              RainEngine.Sample.engine.skills.get
                  node.skillName = some skill ∧
                skill.backend = .wasm executorKind ∧
                invocation.callId = node.callId ∧
                (RunsUnderEffective (executorOf skill)
                    firstContext.metadata.policy invocation ↔
                  WithinBounds skill.manifest.resourcePolicy
                    firstContext.metadata.policy) :=
  ⟨by decide +kernel,
    executeGraph_limits_iff RainEngine.Sample.engine
      firstContext Sample.echoGraph 0 (World.empty "session")
      _ _ _ (Sample.echoRun_exec RainEngine.Sample.engine)⟩

set_option maxRecDepth 100000 in
/- A skill without fuel of its own is run with no fuel. -/
theorem skill_without_fuel_stopped :
    ¬(∀ engine context graph step w steps w' r,
      Exec host w (executeGraph engine context graph step)
          steps w' r →
        ∀ s ∈ steps, ∀ executorKind invocation,
          s.op = .execute (.wasm executorKind) invocation →
            ∀ node ∈ graph.nodes, ∀ skill,
              engine.skills.get node.skillName = some skill →
                invocation.callId = node.callId →
                  RunsUnderEffective (executorOf skill)
                    context.metadata.policy invocation) := by
  intro hAll
  have hInvoked :
      ((Sample.echoRun Sample.unfueledEngine).1.any fun s =>
        (Sample.wasmInvocation s.op).isSome) = true := by
    decide +kernel
  rcases List.any_eq_true.mp hInvoked with ⟨s, hMem, hSome⟩
  rcases Sample.op_of_wasmInvocation hSome with
    ⟨executorKind, invocation, hOp⟩
  have hExec := Sample.echoRun_exec Sample.unfueledEngine
  rcases execute_invocation hExec hMem hOp with
    ⟨node, hNode, skill, hSkill, _, hCall, hManifest⟩
  have hRuns := hAll _ _ _ _ _ _ _ _ hExec s hMem _ _ hOp
    node hNode skill hSkill hCall
  rw [runsUnderEffective_iff hManifest] at hRuns
  have hNames : ∀ node ∈ Sample.echoGraph.nodes,
      ((Sample.unfueledEngine.skills.get
        node.skillName).all fun skill =>
          skill.manifest.resourcePolicy.maxFuel = none) =
        true := by
    decide
  have hNone := hNames node hNode
  rw [hSkill] at hNone
  exact hRuns.fuel (by simpa using hNone)

end RainEngine.Wasm
