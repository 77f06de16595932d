import RainEngine.Batches.Settlement
import RainEngine.Advances.Assertions

/-
  This file proves the rule by which a batch is read as a
  derivation: a relation between statuses and calls that holds
  of a call once it holds of the calls it depends on holds of
  every call the batch decides.

  Key definitions include:
    * `Derives`
    * `Justified`
    * `VerdictRules`

  Key theorems include:
    * `VerdictRules.runGraph`
    * `VerdictRules.executeGraph`
-/

namespace RainEngine

open Effects

------------------------------------------------------------
-- Verdicts
------------------------------------------------------------

/- What the loop knows are verdicts of `D`. -/
structure Derives
    (D : ToolNodeStatus → String → Prop)
    (state : BatchState) : Prop where
  status :
    ∀ callId status, state.status callId = some status →
      status.isTerminal = true → D status callId
  results :
    ∀ result ∈ state.newResults,
      ∃ status, D status result.callId ∧
        (status = .succeeded ↔ result.isOk = true)

/- A task that reports a verdict of `D`. -/
def TaskDerives
    (D : ToolNodeStatus → String → Prop)
    (task : ToolTask) :
    Prop :=
  ∀ result, task = .ok result →
    D (finalStatusForResult result) result.callId

/- A request that runs nothing and ends calls as `D` says. -/
def Justified
    (D : ToolNodeStatus → String → Prop)
    (graph : ToolExecutionGraph)
    (op : Op) :
    Prop :=
  ¬op.Executes ∧
    ∀ checkpoint, op = .append (.toolNodeCheckpoint checkpoint) →
      checkpoint.status.isTerminal = true →
        checkpoint.graphId = graph.graphId ∧
          D checkpoint.status checkpoint.callId

/- All dependencies of a node have succeeded. -/
def Supplied
    (D : ToolNodeStatus → String → Prop)
    (node : ToolNode) :
    Prop :=
  ∀ dependency ∈ node.dependencies,
    D .succeeded dependency.callId

/-
  The verdicts of `D` follow from each other: a node is
  skipped when a dependency has no success, and when all have
  it fails at a gate or as its executor says.
-/
structure VerdictRules
    (M : Machine Op Answer World)
    (P : World → Op → Prop)
    (engine : AgentEngine)
    (context : AgentContext)
    (graph : ToolExecutionGraph)
    (D : ToolNodeStatus → String → Prop) : Prop where
  justified : ∀ w op, Justified D graph op → P w op
  skipped :
    ∀ node ∈ graph.nodes, ∀ dependency ∈ node.dependencies,
      ∀ status, status.isTerminal = true →
        status ≠ .succeeded → D status dependency.callId →
          D .skipped node.callId
  rejected :
    ∀ node ∈ graph.nodes, Supplied D node →
      (∀ skill, ¬PassesGates engine context node skill) →
        D .failed node.callId
  ran :
    ∀ node ∈ graph.nodes, Supplied D node →
      ∀ prepared w, PreparedFor engine context node prepared →
        Safe M P (fun task _ => TaskDerives D task)
          (fun _ _ => True) (runPreparedCall prepared) w

section Verdicts

variable {M : Machine Op Answer World}
variable {P : World → Op → Prop}
variable {engine : AgentEngine}
variable {context : AgentContext}
variable {graph : ToolExecutionGraph}
variable {D : ToolNodeStatus → String → Prop}
variable {state : BatchState}
variable {w : World}

theorem Derives.record
    {status : ToolNodeStatus}
    {result : ToolResultRecord}
    {callId : String}
    (hDerives : Derives D state)
    (hResult : result.callId = callId)
    (hAgrees : status = .succeeded ↔ result.isOk = true)
    (hVerdict : D status callId) :
    Derives D (state.record callId status result) := by
  subst hResult
  constructor
  · intro other status' hStatus hTerminal
    by_cases hOther : other = result.callId
    · subst hOther
      have hSame : status = status' := by
        simpa [BatchState.record] using hStatus
      subst hSame
      exact hVerdict
    · apply hDerives.status other status' _ hTerminal
      simpa [BatchState.record, hOther] using hStatus
  · intro other hMem
    rcases List.mem_append.mp hMem with hOld | hLast
    · exact hDerives.results other hOld
    · rw [List.mem_singleton] at hLast
      subst hLast
      exact ⟨status, hVerdict, hAgrees⟩

/- A ready node is supplied. -/
theorem Derives.supplied_of_isReady
    {node : ToolNode}
    (hDerives : Derives D state)
    (hReady : node.isReady state.status = true) :
    Supplied D node := by
  intro dependency hDependency
  unfold ToolNode.isReady at hReady
  rw [Bool.and_eq_true, List.all_eq_true] at hReady
  have hStatus := hReady.2 dependency hDependency
  rw [decide_eq_true_eq] at hStatus
  exact hDerives.status _ _ hStatus rfl

theorem justified_newUuid :
    Justified D graph .newUuid :=
  ⟨id, nofun⟩

theorem Op.Idle.justified
    {op : Op}
    (hIdle : op.Idle) :
    Justified D graph op := by
  refine ⟨hIdle.1, ?_⟩
  intro checkpoint hOp hTerminal
  rw [hOp] at hIdle
  exact absurd hTerminal hIdle.2

/- Preparing a node fails it only at a gate. -/
theorem allowsNode_justified
    {node : ToolNode}
    (hRejected :
      (∀ skill, ¬PassesGates engine context node skill) →
        D .failed node.callId) :
    AllowsNode (Justified D graph) engine context graph
      node where
  uuid := justified_newUuid
  validation := fun _ _ _ => ⟨id, nofun⟩
  undecided := by
    intro record _ _ hOpen
    refine ⟨id, ?_⟩
    rintro _ ⟨⟩ hTerminal
    rw [hOpen] at hTerminal
    cases hTerminal
  rejected := by
    intro record hGraph hCall hStatus hGates
    refine ⟨id, ?_⟩
    rintro _ ⟨⟩ _
    rw [hStatus, hCall]
    exact ⟨hGraph, hRejected hGates⟩
  toolCall := fun _ _ _ => ⟨id, nofun⟩

namespace VerdictRules

variable (hRules : VerdictRules M P engine context graph D)

include hRules

/- A part whose requests are justified is safe. -/
theorem safe_justified
    {α : Type}
    {V : α → Prop}
    {p : EngineM α}
    (hUses : Uses (Justified D graph) V p) :
    Safe M P (fun a _ => V a) (fun _ _ => True) p w :=
  Safe.mono (fun _ _ h => h) (fun _ _ h => h.1)
    (fun _ _ _ => trivial)
    (hUses.safe (I := fun _ => True)
      (fun w op _ hOp => hRules.justified w op hOp)
      (fun _ _ _ _ _ _ => trivial) trivial)

/- A part that runs nothing and ends no call is safe. -/
theorem safe_idle
    {α : Type}
    {V : α → Prop}
    {p : EngineM α}
    (hUses : Uses Op.Idle V p) :
    Safe M P (fun a _ => V a) (fun _ _ => True) p w :=
  hRules.safe_justified
    (Uses.mono (fun _ h => h.justified) (fun _ h => h) hUses)

/- A checkpoint that ends a call with its verdict is safe. -/
theorem safe_checkpoint
    {node : ToolNode}
    {status : ToolNodeStatus}
    {attempt : Nat}
    {detail : Option String}
    (hVerdict : D status node.callId) :
    Safe M P (fun _ _ => True) (fun _ _ => True)
      (appendToolCheckpoint graph node status attempt detail)
      w := by
  apply hRules.safe_justified (V := fun _ => True)
  refine uses_checkpoint justified_newUuid ?_ trivial
  intro record hGraph hCall hStatus
  refine ⟨id, ?_⟩
  rintro _ ⟨⟩ _
  rw [hStatus, hCall]
  exact ⟨hGraph, hVerdict⟩

theorem skipBlockedNodes
    {nodes : List ToolNode}
    {changed : Bool}
    (hNodes : ∀ node ∈ nodes, node ∈ graph.nodes)
    (hDerives : Derives D state) :
    Safe M P (fun next _ => Derives D next.1)
      (fun _ _ => True)
      (skipBlockedNodes graph nodes state changed) w := by
  induction nodes generalizing state changed w with
  | nil => exact hDerives
  | cons node rest ih =>
      have hNode := hNodes node (by simp)
      have hRest : ∀ n ∈ rest, n ∈ graph.nodes :=
        fun n hMem => hNodes n (by simp [hMem])
      unfold RainEngine.skipBlockedNodes
      split
      · exact ih hRest hDerives
      · split
        · exact ih hRest hDerives
        · rename_i blockedBy hBlocking
          have hMem := List.mem_of_find?_eq_some hBlocking
          have hFailed := List.find?_some hBlocking
          simp only [decide_eq_true_eq] at hFailed
          have hVerdict : D .skipped node.callId := by
            rcases hFailed with hOne | hTwo | hThree
            · exact hRules.skipped node hNode _ hMem .failed
                rfl nofun (hDerives.status _ _ hOne rfl)
            · exact hRules.skipped node hNode _ hMem .skipped
                rfl nofun (hDerives.status _ _ hTwo rfl)
            · exact hRules.skipped node hNode _ hMem .timedOut
                rfl nofun (hDerives.status _ _ hThree rfl)
          refine Safe.bind (hRules.safe_checkpoint hVerdict) ?_
          intro _ w' _
          apply ih hRest
          refine hDerives.record rfl ?_ hVerdict
          simp [errorResult_isOk]

theorem prepareWave
    {step : Nat}
    {nodes : List ToolNode}
    {tasks : List ToolTask}
    (hNodes : ∀ node ∈ nodes, node ∈ graph.nodes)
    (hSupplied : ∀ node ∈ nodes, Supplied D node)
    (hTasks : ∀ task ∈ tasks, TaskDerives D task)
    (hDerives : Derives D state) :
    Safe M P
      (fun next _ => Derives D next.1 ∧
        ∀ task ∈ next.2, TaskDerives D task)
      (fun _ _ => True)
      (prepareWave engine context graph step nodes state
        tasks) w := by
  induction nodes generalizing state tasks w with
  | nil => exact ⟨hDerives, hTasks⟩
  | cons node rest ih =>
      have hNode := hNodes node (by simp)
      have hRest : ∀ n ∈ rest, n ∈ graph.nodes :=
        fun n hMem => hNodes n (by simp [hMem])
      have hRestSupplied : ∀ n ∈ rest, Supplied D n :=
        fun n hMem => hSupplied n (by simp [hMem])
      have hGates := hRules.rejected node hNode
        (hSupplied node (by simp))
      unfold RainEngine.prepareWave
      refine Safe.bind (hRules.safe_justified
        (allowsNode_justified hGates).prepareNode) ?_
      rintro ⟨prepared, attempts⟩ w' hFor
      have hWaiting :
          Derives D { state with attempts := attempts } :=
        ⟨hDerives.status, hDerives.results⟩
      cases hFor with
      | @executable call hCall =>
          refine Safe.bind (hRules.ran node hNode
            (hSupplied node (by simp)) call w' hCall) ?_
          intro task w'' hTask
          apply ih hRest hRestSupplied _ hWaiting
          intro other hMem
          rcases List.mem_append.mp hMem with hOld | hLast
          · exact hTasks other hOld
          · rw [List.mem_singleton] at hLast
            subst hLast
            exact hTask
      | @immediate kind message hKind hRejected =>
          apply ih hRest hRestSupplied hTasks
          refine hWaiting.record rfl
            (finalStatusForResult_succeeded_iff _) ?_
          rw [finalStatusForResult_errorResult hKind]
          exact hGates hRejected

theorem joinTasks
    {tasks : List ToolTask}
    (hTasks : ∀ task ∈ tasks, TaskDerives D task)
    (hDerives : Derives D state) :
    Safe M P (fun next _ => Derives D next)
      (fun _ _ => True) (joinTasks graph tasks state) w := by
  induction tasks generalizing state w with
  | nil => exact hDerives
  | cons task rest ih =>
      have hRest : ∀ t ∈ rest, TaskDerives D t :=
        fun t hMem => hTasks t (by simp [hMem])
      cases task with
      | error joinError => trivial
      | ok result =>
          unfold RainEngine.joinTasks
          split
          · exact ih hRest hDerives
          · rename_i found hFound
            have hId : found.callId = result.callId := by
              simpa using List.find?_some hFound
            have hVerdict :
                D (finalStatusForResult result)
                  found.callId := by
              rw [hId]
              exact hTasks _ (by simp) result rfl
            refine Safe.bind
              (hRules.safe_checkpoint hVerdict) ?_
            intro _ w' _
            apply ih hRest
            exact hDerives.record hId.symm
              (finalStatusForResult_succeeded_iff result)
              hVerdict

theorem runGraph
    {step fuel : Nat}
    (hHost : OnHost M)
    (hDerives : Derives D state) :
    Safe M P (fun final _ => Derives D final)
      (fun _ _ => True)
      (runGraph engine context graph step fuel state) w := by
  induction fuel generalizing state w with
  | zero =>
      refine ⟨hRules.justified w _ ⟨id, ?_⟩, ?_⟩
      · intro _ hOp
        cases hOp
      · intro answer
        cases answer
  | succ fuel ih =>
      unfold RainEngine.runGraph
      refine Safe.bind (hRules.skipBlockedNodes
        (fun _ h => h) hDerives) ?_
      rintro ⟨skipState, skipped⟩ w hSkip
      dsimp only at hSkip ⊢
      split
      · split
        · exact ih hSkip
        · exact hSkip
      · have hWave :
            ∀ n ∈ (nextWave context.metadata.policy graph
                skipState.status).take
                  (maxParallel context.metadata.policy),
              n ∈ graph.nodes ∧
                n.isReady skipState.status = true :=
          fun n hMem =>
            of_mem_nextWave (List.mem_of_mem_take hMem)
        refine Safe.bind (hRules.prepareWave
          (fun n h => (hWave n h).1)
          (fun n h => hSkip.supplied_of_isReady (hWave n h).2)
          (by simp) hSkip) ?_
        rintro ⟨waveState, tasks⟩ w ⟨hWaveState, hTasks⟩
        rw [Safe.bind_iff, safe_perform]
        refine ⟨hRules.justified w _ ⟨id, ?_⟩, ?_⟩
        · intro _ hOp
          cases hOp
        intro finished hAllowed
        have hPerm : tasks.Perm finished :=
          hHost.allowed _ _ _ hAllowed
        refine Safe.bind (hRules.joinTasks
          (fun task hMem =>
            hTasks task (hPerm.mem_iff.mpr hMem))
          hWaveState) ?_
        intro joined w hJoined
        exact ih hJoined

/- The results of a batch are verdicts. -/
theorem executeGraph
    {step : Nat}
    (hHost : OnHost M)
    (hEntry : ∀ callId status,
      latestToolStatuses context graph.graphId callId =
          some status →
        status.isTerminal = true → D status callId) :
    Safe M P
      (fun batch _ => ∀ result ∈ batch.results,
        ∃ status, D status result.callId ∧
          (status = .succeeded ↔ result.isOk = true))
      (fun _ _ => True)
      (executeGraph engine context graph step) w := by
  unfold RainEngine.executeGraph
  refine Safe.bind (hRules.runGraph hHost
    ⟨hEntry, by simp⟩) ?_
  intro final w' hFinal result hMem
  rcases List.mem_filterMap.mp hMem with ⟨node, _, hFound⟩
  exact hFinal.results result
    (List.mem_of_find?_eq_some hFound)

end VerdictRules

end Verdicts

end RainEngine
