import RainEngine.Batches.Progress
import RainEngine.Batches.Statuses
import RainEngine.Kernel.HostRules

/-
  This file relates the scheduling loop to the ledger: the
  statuses the loop works with are those of the terminal
  checkpoints it has appended, each call gets one of them,
  and the results of the loop agree with them.

  Key definitions include:
    * `Latched`
    * `FreshCheckpoint`
    * `BatchInvariant`
    * `BatchReport`

  Key theorems include:
    * `Latched.append`
    * `runGraph_settles`
    * `executeGraph_settles`
-/

namespace RainEngine

open Effects

------------------------------------------------------------
-- Latched Statuses
------------------------------------------------------------

/- The newest status of a settled call is its terminal one. -/
def Latched
    (graphId : String)
    (records : List SessionRecord) :
    Prop :=
  ∀ callId, settled (newestStatus graphId records callId) =
    settledStatus graphId records callId

/-
  A request that appends a checkpoint of the graph only for a
  call that is not settled.
-/
def FreshCheckpoint
    (graphId : String)
    (w : World)
    (op : Op) :
    Prop :=
  ∀ checkpoint, op = .append (.toolNodeCheckpoint checkpoint) →
    checkpoint.graphId = graphId →
      settledStatus graphId w.ledger checkpoint.callId = none

theorem Latched.append
    {graphId : String}
    {w : World}
    {record : SessionRecord}
    (hLatched : Latched graphId w.ledger)
    (hFresh : FreshCheckpoint graphId w (.append record)) :
    Latched graphId (w.ledger ++ [record]) := by
  intro callId
  rw [newestStatus_append, settledStatus_append]
  cases record with
  | toolNodeCheckpoint checkpoint =>
      by_cases hMatch : checkpoint.graphId = graphId ∧
          checkpoint.callId = callId
      · rcases hMatch with ⟨hGraph, hCall⟩
        have hNone := hFresh checkpoint rfl hGraph
        rw [hCall] at hNone
        cases hTerminal : checkpoint.status.isTerminal <;>
          simp [checkpointStatus, terminalStatus, hGraph,
            hCall, hTerminal, hNone, settled, Option.filter]
      · have hNo : ¬(checkpoint.graphId = graphId ∧
            checkpoint.callId = callId ∧
            checkpoint.status.isTerminal = true) :=
          fun h => hMatch ⟨h.1, h.2.1⟩
        simp only [checkpointStatus, terminalStatus, hMatch,
          hNo, if_false, Option.none_or]
        exact hLatched callId
  | _ => exact hLatched callId

theorem Latched.next
    {graphId : String}
    {w : World}
    {op : Op}
    {a : Answer op}
    (hLatched : Latched graphId w.ledger)
    (hFresh : FreshCheckpoint graphId w op) :
    Latched graphId (hostNext w op a).ledger := by
  rcases hostNext_ledger w op a with hSame | hAppend
  · rw [hSame]
    exact hLatched
  · rcases hAppend with ⟨record, hOp, hLedger⟩
    subst hOp
    rw [hLedger]
    exact hLatched.append hFresh

------------------------------------------------------------
-- Checkpoints And The Host
------------------------------------------------------------

section Checkpoints

variable {engine : AgentEngine}
variable {context : AgentContext}
variable {graph : ToolExecutionGraph}
variable {node : ToolNode}
variable {w : World}

/- The settled statuses of a graph in a world's ledger. -/
def settledIn
    (graph : ToolExecutionGraph)
    (w : World) :
    StatusMap :=
  settledStatus graph.graphId w.ledger

theorem freshCheckpoint_of_silent
    {graphId : String}
    {op : Op}
    (hSilent : op.Silent) :
    FreshCheckpoint graphId w op := by
  intro checkpoint hOp
  subst hOp
  exact hSilent.elim

theorem freshCheckpoint_append_other
    {graphId : String}
    {record : SessionRecord}
    (hOther : record.asToolNodeCheckpoint = none) :
    FreshCheckpoint graphId w (.append record) := by
  intro checkpoint hOp
  cases hOp
  cases hOther

/- A checkpoint that is not terminal settles nothing. -/
theorem safe_runningCheckpoint
    {Q : Unit → World → Prop}
    {status : ToolNodeStatus}
    {attempt : Nat}
    {detail : Option String}
    (hFresh : settledIn graph w node.callId = none)
    (hRunning : status.isTerminal = false)
    (hStored : ∀ w',
      settledIn graph w' = settledIn graph w → Q () w') :
    Safe host (FreshCheckpoint graph.graphId) Q
      (fun _ _ => True)
      (appendToolCheckpoint graph node status attempt detail)
      w := by
  unfold appendToolCheckpoint
  rw [Safe.bind_iff]
  apply safe_newUuid (freshCheckpoint_of_silent trivial)
  intro uuid _
  refine safe_appendOrFail ?_ ?_ (fun _ => trivial)
  · intro checkpoint hOp _
    cases hOp
    exact hFresh
  · apply hStored
    unfold settledIn
    rw [World.append_ledger]
    apply settledStatus_append_running
    exact hRunning

/- A terminal checkpoint settles its node. -/
theorem safe_terminalCheckpoint
    {Q : Unit → World → Prop}
    {status : ToolNodeStatus}
    {attempt : Nat}
    {detail : Option String}
    (hFresh : settledIn graph w node.callId = none)
    (hTerminal : status.isTerminal = true)
    (hStored : ∀ w',
      settledIn graph w' =
        Function.update (settledIn graph w) node.callId
          (some status) → Q () w') :
    Safe host (FreshCheckpoint graph.graphId) Q
      (fun _ _ => True)
      (appendToolCheckpoint graph node status attempt detail)
      w := by
  unfold appendToolCheckpoint
  rw [Safe.bind_iff]
  apply safe_newUuid (freshCheckpoint_of_silent trivial)
  intro uuid _
  refine safe_appendOrFail ?_ ?_ (fun _ => trivial)
  · intro checkpoint hOp _
    cases hOp
    exact hFresh
  · apply hStored
    unfold settledIn
    rw [World.append_ledger]
    exact settledStatus_append_terminal rfl rfl rfl
      hTerminal

theorem safe_appendValidation
    {Q : Unit → World → Prop}
    {valid : Bool}
    {errors : List String}
    (hStored : ∀ w',
      settledIn graph w' = settledIn graph w → Q () w') :
    Safe host (FreshCheckpoint graph.graphId) Q
      (fun _ _ => True)
      (appendValidation graph node valid errors) w := by
  unfold appendValidation
  rw [Safe.bind_iff]
  apply safe_newUuid (freshCheckpoint_of_silent trivial)
  intro uuid _
  refine safe_appendOrFail
    (freshCheckpoint_append_other rfl) ?_ (fun _ => trivial)
  exact hStored _ (settledStatus_append_other rfl)

/-
  Preparing a node settles it as failed, or leaves it to its
  executor.
-/
def Prepares
    (graph : ToolExecutionGraph)
    (node : ToolNode)
    (w : World)
    (prepared : PreparedNode)
    (w' : World) :
    Prop :=
  settledIn graph w' =
    match prepared with
    | .executable _ => settledIn graph w
    | .immediate _ =>
        Function.update (settledIn graph w) node.callId
          (some .failed)

theorem safe_rejectNode
    {kind : SkillFailureKind}
    {message : String}
    (hFresh : settledIn graph w node.callId = none) :
    Safe host (FreshCheckpoint graph.graphId)
      (Prepares graph node w) (fun _ _ => True)
      (rejectNode graph node kind message) w := by
  unfold rejectNode
  rw [Safe.bind_iff]
  apply safe_terminalCheckpoint hFresh rfl
  intro w' hSettled
  rw [safe_pure]
  exact hSettled

theorem safe_startNode
    {skill : RegisteredSkill}
    {step attempt : Nat}
    (hFresh : settledIn graph w node.callId = none) :
    Safe host (FreshCheckpoint graph.graphId)
      (Prepares graph node w) (fun _ _ => True)
      (startNode context graph node skill step attempt)
      w := by
  unfold startNode
  rw [Safe.bind_iff]
  apply safe_runningCheckpoint hFresh rfl
  intro w' hSettled
  rw [Safe.bind_iff]
  refine safe_appendOrFail
    (freshCheckpoint_append_other rfl) ?_ (fun _ => trivial)
  rw [safe_pure]
  unfold Prepares
  rw [← hSettled]
  exact settledStatus_append_other rfl

theorem safe_guardNode
    {skill : RegisteredSkill}
    {step : Nat}
    {attempts : AttemptMap}
    (hFresh : settledIn graph w node.callId = none) :
    Safe host (FreshCheckpoint graph.graphId)
      (fun r w' => Prepares graph node w r.1 w')
      (fun _ _ => True)
      (guardNode engine context graph node skill step
        attempts) w := by
  unfold guardNode
  rw [Safe.bind_iff]
  apply safe_runningCheckpoint hFresh rfl
  intro w' hSame
  have hStill : settledIn graph w' node.callId = none := by
    rw [hSame]
    exact hFresh
  have hReject : ∀ kind message,
      Safe host (FreshCheckpoint graph.graphId)
        (fun r w'' => Prepares graph node w r w'')
        (fun _ _ => True)
        (rejectNode graph node kind message) w' := by
    intro kind message
    unfold Prepares
    rw [← hSame]
    exact safe_rejectNode hStill
  split
  · rw [Safe.bind_iff]
    exact hReject _ _
  · split
    · rw [Safe.bind_iff]
      exact hReject _ _
    · split
      · rw [Safe.bind_iff]
        exact hReject _ _
      · split
        · rw [Safe.bind_iff]
          exact hReject _ _
        · rw [Safe.bind_iff]
          unfold Prepares
          rw [← hSame]
          exact safe_startNode hStill

theorem safe_prepareNode
    {step : Nat}
    {attempts : AttemptMap}
    (hFresh : settledIn graph w node.callId = none) :
    Safe host (FreshCheckpoint graph.graphId)
      (fun r w' => Prepares graph node w r.1 w')
      (fun _ _ => True)
      (prepareNode engine context graph node step attempts)
      w := by
  unfold prepareNode
  split
  · rw [Safe.bind_iff]
    apply safe_appendValidation
    intro w' hSame
    rw [Safe.bind_iff]
    unfold Prepares
    rw [← hSame]
    rw [← hSame] at hFresh
    exact safe_rejectNode hFresh
  · split
    · rw [Safe.bind_iff]
      apply safe_appendValidation
      intro w' hSame
      unfold Prepares
      rw [← hSame]
      rw [← hSame] at hFresh
      split
      · rw [Safe.bind_iff]
        exact safe_rejectNode hFresh
      · exact safe_guardNode hFresh
    · exact safe_guardNode hFresh

end Checkpoints

------------------------------------------------------------
-- The Invariant Of The Loop
------------------------------------------------------------

/-
  A call may have succeeded: its node could be run, and all
  its dependencies have succeeded.
-/
def Earned
    (engine : AgentEngine)
    (context : AgentContext)
    (graph : ToolExecutionGraph)
    (w : World)
    (callId : String) :
    Prop :=
  ∃ node ∈ graph.nodes, node.callId = callId ∧
    Runnable engine context node ∧
    ∀ dependency ∈ node.dependencies,
      settledIn graph w dependency.callId = some .succeeded

/-
  The loop's statuses are those of the ledger, and its new
  results are those of the calls settled since `entry`, one
  for each of them.
-/
structure BatchInvariant
    (engine : AgentEngine)
    (context : AgentContext)
    (graph : ToolExecutionGraph)
    (entry : StatusMap)
    (w : World)
    (state : BatchState) : Prop where
  reflects :
    ∀ callId, settled (state.status callId) =
      settledIn graph w callId
  kept :
    ∀ callId, entry callId ≠ none →
      settledIn graph w callId = entry callId
  complete :
    ∀ callId, settledIn graph w callId ≠ none →
      entry callId ≠ none ∨
        ∃ result ∈ state.newResults, result.callId = callId
  nodup : (state.newResults.map (·.callId)).Nodup
  owned :
    ∀ result ∈ state.newResults,
      result.callId ∈ graph.nodes.map (·.callId)
  fresh :
    ∀ result ∈ state.newResults, entry result.callId = none
  agrees :
    ∀ result ∈ state.newResults, ∃ status,
      settledIn graph w result.callId = some status ∧
        (status = .succeeded ↔ result.isOk = true)
  earned :
    ∀ result ∈ state.newResults, result.isOk = true →
      Earned engine context graph w result.callId

section Invariant

variable {engine : AgentEngine}
variable {context : AgentContext}
variable {graph : ToolExecutionGraph}
variable {entry : StatusMap}
variable {w w' : World}
variable {state : BatchState}

/- No settled call has changed its status. -/
def Extends
    (graph : ToolExecutionGraph)
    (w w' : World) :
    Prop :=
  ∀ callId, settledIn graph w callId ≠ none →
    settledIn graph w' callId = settledIn graph w callId

theorem Extends.of_eq
    (hSettled : settledIn graph w' = settledIn graph w) :
    Extends graph w w' :=
  fun callId _ => congrFun hSettled callId

theorem Extends.of_update
    {callId : String}
    {status : ToolNodeStatus}
    (hFresh : settledIn graph w callId = none)
    (hSettled :
      settledIn graph w' =
        Function.update (settledIn graph w) callId
          (some status)) :
    Extends graph w w' := by
  intro other hSome
  rw [hSettled]
  apply Function.update_of_ne
  intro hEq
  subst hEq
  exact hSome hFresh

theorem Earned.extends
    {callId : String}
    (hEarned : Earned engine context graph w callId)
    (hExtends : Extends graph w w') :
    Earned engine context graph w' callId := by
  rcases hEarned with
    ⟨node, hNode, hId, hRunnable, hDependencies⟩
  refine ⟨node, hNode, hId, hRunnable, ?_⟩
  intro dependency hMem
  have hBefore := hDependencies dependency hMem
  rw [hExtends _ (by simp [hBefore]), hBefore]

namespace BatchInvariant

/- Only the settled statuses of a world matter. -/
theorem congr
    (hInv : BatchInvariant engine context graph entry w state)
    (hSettled : settledIn graph w' = settledIn graph w) :
    BatchInvariant engine context graph entry w' state where
  reflects := by
    rw [hSettled]
    exact hInv.reflects
  kept := by
    rw [hSettled]
    exact hInv.kept
  complete := by
    rw [hSettled]
    exact hInv.complete
  nodup := hInv.nodup
  owned := hInv.owned
  fresh := hInv.fresh
  agrees := by
    rw [hSettled]
    exact hInv.agrees
  earned := fun result hMem hOk =>
    (hInv.earned result hMem hOk).extends (.of_eq hSettled)

/- The attempt counts of a state do not matter. -/
theorem withAttempts
    (hInv : BatchInvariant engine context graph entry w state)
    (attempts : AttemptMap) :
    BatchInvariant engine context graph entry w
      { state with attempts := attempts } where
  reflects := hInv.reflects
  kept := hInv.kept
  complete := hInv.complete
  nodup := hInv.nodup
  owned := hInv.owned
  fresh := hInv.fresh
  agrees := hInv.agrees
  earned := hInv.earned

theorem unsettled_iff
    {callId : String}
    (hInv : BatchInvariant engine context graph entry w state) :
    ¬state.Settled callId ↔
      settledIn graph w callId = none := by
  unfold BatchState.Settled
  rw [isTerminalStatus_iff, hInv.reflects]
  simp

/- A call that is settled for the first time. -/
theorem record
    {callId : String}
    {status : ToolNodeStatus}
    {result : ToolResultRecord}
    (hInv : BatchInvariant engine context graph entry w state)
    (hOwned : callId ∈ graph.nodes.map (·.callId))
    (hFresh : settledIn graph w callId = none)
    (hTerminal : status.isTerminal = true)
    (hResult : result.callId = callId)
    (hAgrees : status = .succeeded ↔ result.isOk = true)
    (hEarned :
      result.isOk = true → Earned engine context graph w callId)
    (hSettled :
      settledIn graph w' =
        Function.update (settledIn graph w) callId
          (some status)) :
    BatchInvariant engine context graph entry w'
      (state.record callId status result) := by
  subst hResult
  have hOther : Extends graph w w' :=
    .of_update hFresh hSettled
  have hEntry : entry result.callId = none := by
    by_contra hSome
    rw [hInv.kept _ hSome] at hFresh
    exact hSome hFresh
  have hNew :
      settledIn graph w' result.callId = some status := by
    rw [hSettled, Function.update_self]
  constructor
  · intro callId
    by_cases hCall : callId = result.callId
    · subst hCall
      rw [hNew]
      simp [BatchState.record, settled, Option.filter,
        hTerminal]
    · rw [hSettled, Function.update_of_ne hCall,
        ← hInv.reflects]
      simp [BatchState.record, Function.update_of_ne hCall]
  · intro callId hSome
    have hKept := hInv.kept callId hSome
    rw [hOther callId (by rw [hKept]; exact hSome), hKept]
  · intro callId hSome
    by_cases hCall : callId = result.callId
    · exact .inr ⟨result, by simp [BatchState.record],
        hCall.symm⟩
    · rw [hSettled, Function.update_of_ne hCall] at hSome
      rcases hInv.complete callId hSome with hOld | hRes
      · exact .inl hOld
      · rcases hRes with ⟨r, hMem, hEq⟩
        exact .inr ⟨r, by simp [BatchState.record, hMem],
          hEq⟩
  · have hNotMem :
        result.callId ∉ state.newResults.map (·.callId) := by
      intro hMem
      rcases List.mem_map.mp hMem with ⟨r, hR, hEq⟩
      rcases hInv.agrees r hR with ⟨old, hOld, _⟩
      rw [hEq, hFresh] at hOld
      cases hOld
    simp only [BatchState.record, List.map_append,
      List.map_cons, List.map_nil]
    exact List.Nodup.append hInv.nodup (by simp)
      (by simpa using hNotMem)
  · intro r hMem
    rcases List.mem_append.mp hMem with hOld | hLast
    · exact hInv.owned r hOld
    · rw [List.mem_singleton] at hLast
      subst hLast
      exact hOwned
  · intro r hMem
    rcases List.mem_append.mp hMem with hOld | hLast
    · exact hInv.fresh r hOld
    · rw [List.mem_singleton] at hLast
      subst hLast
      exact hEntry
  · intro r hMem
    rcases List.mem_append.mp hMem with hOld | hLast
    · rcases hInv.agrees r hOld with ⟨old, hStatus, hIff⟩
      refine ⟨old, ?_, hIff⟩
      rw [hOther _ (by simp [hStatus]), hStatus]
    · rw [List.mem_singleton] at hLast
      subst hLast
      exact ⟨status, hNew, hAgrees⟩
  · intro r hMem hOk
    rcases List.mem_append.mp hMem with hOld | hLast
    · exact (hInv.earned r hOld hOk).extends hOther
    · rw [List.mem_singleton] at hLast
      subst hLast
      exact (hEarned hOk).extends hOther

end BatchInvariant

/- The final status of a result says whether it is Ok. -/
theorem finalStatusForResult_succeeded_iff
    (result : ToolResultRecord) :
    finalStatusForResult result = .succeeded ↔
      result.isOk = true := by
  unfold finalStatusForResult ToolResultRecord.isOk
  cases result.output with
  | ok value => simp
  | error failure =>
      by_cases hTimeout : failure.kind = .timeout <;>
        simp [hTimeout]

theorem errorResult_isOk
    (callId skillName : String)
    (kind : SkillFailureKind)
    (message : String) :
    (errorResult callId skillName kind message).isOk =
      false :=
  rfl

/- A rejected call ends as failed. -/
theorem finalStatusForResult_errorResult
    {callId skillName message : String}
    {kind : SkillFailureKind}
    (hKind : kind ≠ .timeout) :
    finalStatusForResult
      (errorResult callId skillName kind message) =
        .failed := by
  simp [finalStatusForResult, errorResult, hKind]

theorem skipBlockedNodes_settles
    {nodes : List ToolNode}
    {changed : Bool}
    (hNodes : ∀ node ∈ nodes, node ∈ graph.nodes)
    (hInv : BatchInvariant engine context graph entry w state) :
    Safe host (FreshCheckpoint graph.graphId)
      (fun next w' => BatchInvariant engine context graph entry w' next.1)
      (fun _ _ => True)
      (skipBlockedNodes graph nodes state changed) w := by
  induction nodes generalizing state changed w with
  | nil => exact hInv
  | cons node rest ih =>
      have hNode := hNodes node (by simp)
      have hRest : ∀ n ∈ rest, n ∈ graph.nodes :=
        fun n hMem => hNodes n (by simp [hMem])
      unfold skipBlockedNodes
      split
      · exact ih hRest hInv
      · rename_i hUnsettled
        have hFresh := hInv.unsettled_iff.mp hUnsettled
        split
        · exact ih hRest hInv
        · rw [Safe.bind_iff]
          apply safe_terminalCheckpoint hFresh rfl
          intro w' hSettled
          apply ih hRest
          refine hInv.record (List.mem_map_of_mem hNode)
            hFresh rfl rfl ?_ ?_ hSettled
          · simp [errorResult_isOk]
          · simp [errorResult_isOk]

/- The calls the finished tasks of a wave report on. -/
def reportedIds (tasks : List ToolTask) : List String :=
  tasks.filterMap fun task =>
    match task with
    | .ok result => some result.callId
    | .error _ => none

/- Distinct calls that are not settled yet. -/
def Awaiting
    (graph : ToolExecutionGraph)
    (w : World)
    (callIds : List String) :
    Prop :=
  callIds.Nodup ∧
    ∀ callId ∈ callIds, settledIn graph w callId = none

namespace Awaiting

theorem sublist
    {few many : List String}
    (hAwait : Awaiting graph w many)
    (hSublist : few.Sublist many) :
    Awaiting graph w few :=
  ⟨hAwait.1.sublist hSublist,
    fun callId hMem => hAwait.2 callId (hSublist.subset hMem)⟩

theorem perm
    {first second : List String}
    (hAwait : Awaiting graph w first)
    (hPerm : first.Perm second) :
    Awaiting graph w second :=
  ⟨hPerm.nodup_iff.mp hAwait.1,
    fun callId hMem =>
      hAwait.2 callId (hPerm.mem_iff.mpr hMem)⟩

theorem congr
    {callIds : List String}
    (hAwait : Awaiting graph w callIds)
    (hSettled : settledIn graph w' = settledIn graph w) :
    Awaiting graph w' callIds := by
  refine ⟨hAwait.1, ?_⟩
  rw [hSettled]
  exact hAwait.2

/- Settling one call leaves the others waiting. -/
theorem settle
    {callId : String}
    {callIds : List String}
    {status : ToolNodeStatus}
    (hAwait : Awaiting graph w (callId :: callIds))
    (hSettled :
      settledIn graph w' =
        Function.update (settledIn graph w) callId
          (some status)) :
    Awaiting graph w' callIds := by
  rcases List.nodup_cons.mp hAwait.1 with ⟨hNotMem, hNodup⟩
  refine ⟨hNodup, ?_⟩
  intro other hMem
  have hNe : other ≠ callId := by
    intro hEq
    subst hEq
    exact hNotMem hMem
  rw [hSettled, Function.update_of_ne hNe]
  exact hAwait.2 other (by simp [hMem])

end Awaiting

theorem settledIn_congr
    (hLedger : w'.ledger = w.ledger) :
    settledIn graph w' = settledIn graph w := by
  unfold settledIn
  rw [hLedger]

theorem reportedIds_append
    (tasks more : List ToolTask) :
    reportedIds (tasks ++ more) =
      reportedIds tasks ++ reportedIds more :=
  List.filterMap_append

/- A successful task has earned its success. -/
def TaskEarned
    (engine : AgentEngine)
    (context : AgentContext)
    (graph : ToolExecutionGraph)
    (w : World)
    (task : ToolTask) :
    Prop :=
  ∀ result, task = .ok result → result.isOk = true →
    Earned engine context graph w result.callId

theorem TaskEarned.extends
    {task : ToolTask}
    (hEarned : TaskEarned engine context graph w task)
    (hExtends : Extends graph w w') :
    TaskEarned engine context graph w' task :=
  fun result hTask hOk =>
    (hEarned result hTask hOk).extends hExtends

/- All dependencies of a node have succeeded. -/
def Unlocked
    (graph : ToolExecutionGraph)
    (w : World)
    (node : ToolNode) :
    Prop :=
  ∀ dependency ∈ node.dependencies,
    settledIn graph w dependency.callId = some .succeeded

theorem Unlocked.extends
    {node : ToolNode}
    (hUnlocked : Unlocked graph w node)
    (hExtends : Extends graph w w') :
    Unlocked graph w' node := by
  intro dependency hMem
  have hBefore := hUnlocked dependency hMem
  rw [hExtends _ (by simp [hBefore]), hBefore]

theorem taskEarned_of_unlocked
    {node : ToolNode}
    {task : ToolTask}
    (hNode : node ∈ graph.nodes)
    (hUnlocked : Unlocked graph w node)
    (hTask : TaskFor engine context node task) :
    TaskEarned engine context graph w task := by
  intro result hResult hOk
  have hFor := hTask result hResult
  exact ⟨node, hNode, hFor.callId.symm, hFor.attempted hOk,
    hUnlocked⟩

/-
  A wave settles the nodes it rejects; the tasks of the others
  report on calls that are not settled yet.
-/
theorem prepareWave_settles
    {step : Nat}
    {nodes : List ToolNode}
    {tasks : List ToolTask}
    (hNodes : ∀ node ∈ nodes, node ∈ graph.nodes)
    (hUnlocked : ∀ node ∈ nodes, Unlocked graph w node)
    (hEarned : ∀ task ∈ tasks, TaskEarned engine context graph w task)
    (hInv : BatchInvariant engine context graph entry w state)
    (hAwait : Awaiting graph w
      (reportedIds tasks ++ nodes.map (·.callId))) :
    Safe host (FreshCheckpoint graph.graphId)
      (fun next w' => BatchInvariant engine context graph entry w' next.1 ∧
        Awaiting graph w' (reportedIds next.2) ∧
        ∀ task ∈ next.2, TaskEarned engine context graph w' task)
      (fun _ _ => True)
      (prepareWave engine context graph step nodes state
        tasks) w := by
  induction nodes generalizing state tasks w with
  | nil => exact ⟨hInv, by simpa using hAwait, hEarned⟩
  | cons node rest ih =>
      have hNode := hNodes node (by simp)
      have hRest : ∀ n ∈ rest, n ∈ graph.nodes :=
        fun n hMem => hNodes n (by simp [hMem])
      have hFresh : settledIn graph w node.callId = none :=
        hAwait.2 node.callId (by simp)
      have hPrepare :
          Safe host (FreshCheckpoint graph.graphId)
            (fun r w' => Prepares graph node w r.1 w' ∧
              PreparedNode.IsFor engine context node r.1)
            (fun _ _ => True)
            (prepareNode engine context graph node step
              state.attempts) w :=
        Safe.mono (fun _ _ h => h.1) (fun _ _ h => h)
          (fun _ _ h => h)
          (Safe.and_uses (safe_prepareNode hFresh)
            (uses_prepareNode hNode))
      unfold prepareWave
      refine Safe.bind hPrepare ?_
      rintro ⟨prepared, attempts⟩ w' ⟨hPrepared, hFor⟩
      cases hFor with
      | @executable call hCall =>
          have hSame :
              settledIn graph w' = settledIn graph w :=
            hPrepared
          refine Safe.bind (safe_silent
            (uses_runPreparedCall hCall trivial
              (fun _ => trivial))
            (fun _ _ h => freshCheckpoint_of_silent h)
            (fun _ _ => trivial)) ?_
          rintro task w'' ⟨hTask, hLedger⟩
          have hSettled :
              settledIn graph w'' = settledIn graph w :=
            (settledIn_congr hLedger).trans hSame
          have hExtends : Extends graph w w'' :=
            .of_eq hSettled
          apply ih hRest
          · intro n hMem
            exact (hUnlocked n (by simp [hMem])).extends
              hExtends
          · intro t hMem
            rcases List.mem_append.mp hMem with hOld | hLast
            · exact (hEarned t hOld).extends hExtends
            · rw [List.mem_singleton] at hLast
              subst hLast
              exact (taskEarned_of_unlocked hNode
                (hUnlocked node (by simp)) hTask).extends
                  hExtends
          · exact (hInv.withAttempts attempts).congr hSettled
          · refine Awaiting.congr ?_ hSettled
            rw [reportedIds_append]
            cases task with
            | ok result =>
                have hId := (hTask result rfl).callId
                simpa [reportedIds, hId] using hAwait
            | error joinError =>
                apply hAwait.sublist
                simp [reportedIds]
      | @immediate kind message hKind _ =>
          have hSettled :
              settledIn graph w' =
                Function.update (settledIn graph w)
                  node.callId (some .failed) :=
            hPrepared
          have hFinal :
              finalStatusForResult (errorResult node.callId
                node.skillName kind message) = .failed :=
            finalStatusForResult_errorResult hKind
          rw [← hFinal] at hSettled
          have hExtends : Extends graph w w' :=
            .of_update hFresh hSettled
          apply ih hRest
          · intro n hMem
            exact (hUnlocked n (by simp [hMem])).extends
              hExtends
          · exact fun t hMem =>
              (hEarned t hMem).extends hExtends
          · exact (hInv.withAttempts attempts).record
              (List.mem_map_of_mem hNode) hFresh
              (finalStatusForResult_isTerminal _) rfl
              (finalStatusForResult_succeeded_iff _)
              (by intro hOk; cases hOk) hSettled
          · refine Awaiting.settle ?_ hSettled
            apply hAwait.perm
            simp

/- Joined tasks settle the calls they report on. -/
theorem joinTasks_settles
    {tasks : List ToolTask}
    (hInv : BatchInvariant engine context graph entry w state)
    (hAwait : Awaiting graph w (reportedIds tasks))
    (hEarned : ∀ task ∈ tasks, TaskEarned engine context graph w task) :
    Safe host (FreshCheckpoint graph.graphId)
      (fun next w' => BatchInvariant engine context graph entry w' next)
      (fun _ _ => True)
      (joinTasks graph tasks state) w := by
  induction tasks generalizing state w with
  | nil => exact hInv
  | cons task rest ih =>
      have hRest : ∀ t ∈ rest, TaskEarned engine context graph w t :=
        fun t hMem => hEarned t (by simp [hMem])
      cases task with
      | error joinError => trivial
      | ok result =>
          have hAll : Awaiting graph w
              (result.callId :: reportedIds rest) :=
            hAwait
          unfold joinTasks
          split
          · exact ih hInv
              (hAll.sublist (List.sublist_cons_self _ _))
              hRest
          · rename_i node hFound
            have hId : node.callId = result.callId := by
              simpa using List.find?_some hFound
            have hNode := List.mem_of_find?_eq_some hFound
            have hFresh :
                settledIn graph w node.callId = none := by
              rw [hId]
              exact hAll.2 _ (by simp)
            rw [Safe.bind_iff]
            apply safe_terminalCheckpoint hFresh
              (finalStatusForResult_isTerminal result)
            intro w' hSettled
            apply ih
            · apply hInv.record (List.mem_map_of_mem hNode)
                hFresh (finalStatusForResult_isTerminal _)
                hId.symm
                (finalStatusForResult_succeeded_iff result)
                _ hSettled
              rw [hId]
              exact hEarned _ (by simp) result rfl
            · rw [hId] at hSettled
              exact hAll.settle hSettled
            · exact fun t hMem => (hRest t hMem).extends
                (.of_update hFresh hSettled)

/- The nodes of a wave have distinct call ids. -/
theorem nodup_wave
    {policy : EnginePolicy}
    {status : StatusMap}
    {count : Nat}
    (hNodup : (graph.nodes.map (·.callId)).Nodup) :
    (((nextWave policy graph status).take count).map
      (·.callId)).Nodup := by
  have hReady :
      ((readyNodes graph status).map (·.callId)).Nodup := by
    unfold readyNodes
    have hPerm := (List.perm_insertionSort
      ToolNode.runsBefore
      (graph.nodes.filter (ToolNode.isReady status))).map
        (·.callId)
    rw [hPerm.nodup_iff]
    exact hNodup.sublist
      (List.Sublist.map _ List.filter_sublist)
  refine List.Nodup.sublist (List.Sublist.map _ ?_) hReady
  exact (List.take_sublist _ _).trans (List.take_sublist _ _)

/- A ready node has no open dependency in the ledger. -/
theorem BatchInvariant.unlocked_of_isReady
    {node : ToolNode}
    (hInv : BatchInvariant engine context graph entry w state)
    (hReady : node.isReady state.status = true) :
    Unlocked graph w node := by
  intro dependency hMem
  unfold ToolNode.isReady at hReady
  rw [Bool.and_eq_true, List.all_eq_true] at hReady
  have hStatus := hReady.2 dependency hMem
  rw [← hInv.reflects, settled_succeeded_iff]
  simpa using hStatus

theorem runGraph_settles
    {step fuel : Nat}
    (hNodup : (graph.nodes.map (·.callId)).Nodup)
    (hInv : BatchInvariant engine context graph entry w state) :
    Safe host (FreshCheckpoint graph.graphId)
      (fun final w' => BatchInvariant engine context graph entry w' final)
      (fun _ _ => True)
      (runGraph engine context graph step fuel state) w := by
  induction fuel generalizing state w with
  | zero => exact ⟨freshCheckpoint_of_silent trivial, nofun⟩
  | succ fuel ih =>
      unfold runGraph
      refine Safe.bind
        (skipBlockedNodes_settles (fun _ h => h) hInv) ?_
      rintro ⟨skipState, skipped⟩ w hSkip
      dsimp only
      split
      · split
        · exact ih hSkip
        · exact hSkip
      · have hWaveNodes :
            ∀ n ∈ (nextWave context.metadata.policy graph
                skipState.status).take
                  (maxParallel context.metadata.policy),
              n ∈ graph.nodes ∧
                n.isReady skipState.status = true :=
          fun n hMem =>
            of_mem_nextWave (List.mem_of_mem_take hMem)
        refine Safe.bind (prepareWave_settles
          (fun n h => (hWaveNodes n h).1)
          (fun n h => hSkip.unlocked_of_isReady
            (hWaveNodes n h).2) (by simp) hSkip ?_) ?_
        · refine ⟨nodup_wave hNodup, ?_⟩
          intro callId hMem
          rcases List.mem_map.mp hMem with ⟨n, hN, hEq⟩
          subst hEq
          exact hSkip.unsettled_iff.mp
            (not_settled_of_isReady (hWaveNodes n hN).2)
        · rintro ⟨waveState, tasks⟩ w
            ⟨hWave, hAwait, hEarned⟩
          rw [Safe.bind_iff, safe_perform]
          refine ⟨freshCheckpoint_of_silent trivial, ?_⟩
          intro finished hPerm
          refine Safe.bind
            (joinTasks_settles hWave ?_ ?_) ?_
          · exact hAwait.perm (hPerm.filterMap _)
          · exact fun task hMem =>
              hEarned task (hPerm.mem_iff.mpr hMem)
          · intro joined w hJoin
            exact ih hJoin

end Invariant

------------------------------------------------------------
-- The Report Of A Batch
------------------------------------------------------------

/-
  What a finished batch leaves behind: nothing more can be
  done for the graph, and the results are those of the calls
  settled since `entry`, one for each, agreeing with them.
-/
structure BatchReport
    (engine : AgentEngine)
    (context : AgentContext)
    (graph : ToolExecutionGraph)
    (entry : StatusMap)
    (w : World)
    (batch : ExecutedBatch) : Prop where
  quiescent : Quiescent graph (settledIn graph w)
  kept :
    ∀ callId, entry callId ≠ none →
      settledIn graph w callId = entry callId
  nodup : (batch.results.map (·.callId)).Nodup
  owned :
    ∀ result ∈ batch.results,
      result.callId ∈ graph.nodes.map (·.callId)
  covers :
    ∀ callId, (∃ result ∈ batch.results,
        result.callId = callId) ↔
      entry callId = none ∧ settledIn graph w callId ≠ none
  agrees :
    ∀ result ∈ batch.results, ∃ status,
      settledIn graph w result.callId = some status ∧
        (status = .succeeded ↔ result.isOk = true)
  earned :
    ∀ callId, entry callId = none →
      settledIn graph w callId = some .succeeded →
        Earned engine context graph w callId

section Report

variable {engine : AgentEngine}
variable {context : AgentContext}
variable {graph : ToolExecutionGraph}
variable {w : World}

theorem settled_eq_iff
    {status : Option ToolNodeStatus}
    {terminal : ToolNodeStatus}
    (hTerminal : terminal.isTerminal = true) :
    settled status = some terminal ↔
      status = some terminal := by
  constructor
  · intro hSettled
    exact (settled_eq_some hSettled).1
  · intro hStatus
    subst hStatus
    simp [settled, Option.filter, hTerminal]

/- Only the terminal part of a status is ever looked at. -/
theorem Quiescent.congr
    {status status' : StatusMap}
    (hQuiet : Quiescent graph status)
    (hSettled : ∀ callId,
      settled (status callId) = settled (status' callId)) :
    Quiescent graph status' := by
  have hEq : ∀ (terminal : ToolNodeStatus) (callId : String),
      terminal.isTerminal = true →
        (status callId = some terminal ↔
          status' callId = some terminal) := by
    intro terminal callId hTerminal
    rw [← settled_eq_iff hTerminal, hSettled,
      settled_eq_iff hTerminal]
  have hTerminal : ∀ callId,
      isTerminalStatus (status callId) =
        isTerminalStatus (status' callId) := by
    intro callId
    rw [Bool.eq_iff_iff, isTerminalStatus_iff,
      isTerminalStatus_iff, hSettled]
  have hBlocking : ∀ node,
      blockingDependency status node =
        blockingDependency status' node := by
    intro node
    unfold blockingDependency
    congr 1
    funext dependency
    simp only [hEq .failed dependency.callId rfl,
      hEq .skipped dependency.callId rfl,
      hEq .timedOut dependency.callId rfl]
  have hReady : ∀ node : ToolNode,
      node.isReady status = node.isReady status' := by
    intro node
    unfold ToolNode.isReady
    rw [hTerminal]
    simp only [hEq .succeeded _ rfl]
  intro node hNode
  rw [← hTerminal, ← hBlocking, ← hReady]
  exact hQuiet node hNode

theorem settled_settledIn
    (callId : String) :
    settled (settledIn graph w callId) =
      settledIn graph w callId := by
  cases hStatus : settledIn graph w callId with
  | none => rfl
  | some status =>
      have hTerminal := settledStatus_isTerminal hStatus
      simp [settled, Option.filter, hTerminal]

/- The ordered results are in the order of the nodes. -/
theorem orderedResults_sublist
    (nodes : List ToolNode)
    (newResults : List ToolResultRecord) :
    ((nodes.filterMap fun node =>
      newResults.find? (·.callId = node.callId)).map
        (·.callId)).Sublist (nodes.map (·.callId)) := by
  induction nodes with
  | nil => simp
  | cons node rest ih =>
      cases hFind :
          newResults.find? (·.callId = node.callId) with
      | none =>
          rw [List.filterMap_cons, hFind]
          exact ih.trans (by simp)
      | some result =>
          have hId : result.callId = node.callId := by
            simpa using List.find?_some hFind
          rw [List.filterMap_cons, hFind, List.map_cons,
            List.map_cons, hId]
          exact ih.cons_cons _

theorem mem_orderedResults_iff
    {newResults : List ToolResultRecord}
    {result : ToolResultRecord}
    (hNodup : (newResults.map (·.callId)).Nodup)
    (hOwned : ∀ r ∈ newResults,
      r.callId ∈ graph.nodes.map (·.callId)) :
    result ∈ orderedResults graph newResults ↔
      result ∈ newResults := by
  unfold orderedResults
  rw [List.mem_filterMap]
  constructor
  · rintro ⟨node, _, hFind⟩
    exact List.mem_of_find?_eq_some hFind
  · intro hMem
    rcases List.mem_map.mp (hOwned result hMem) with
      ⟨node, hNode, hId⟩
    refine ⟨node, hNode, ?_⟩
    cases hFind :
        newResults.find? (·.callId = node.callId) with
    | none =>
        have hNone :=
          List.find?_eq_none.mp hFind result hMem
        simp [hId] at hNone
    | some other =>
        have hOther : other.callId = node.callId := by
          simpa using List.find?_some hFind
        have hSame := List.inj_on_of_nodup_map hNodup
          (List.mem_of_find?_eq_some hFind) hMem
          (hOther.trans hId)
        rw [hSame]

/-
  Running a graph to its end from statuses that agree with
  the ledger gives a report on it.
-/
theorem executeGraph_settles
    {step : Nat}
    (hNodup : (graph.nodes.map (·.callId)).Nodup)
    (hEntry : ∀ callId,
      settled (latestToolStatuses context graph.graphId
        callId) = settledIn graph w callId) :
    Safe host (FreshCheckpoint graph.graphId)
      (fun batch w' =>
        BatchReport engine context graph (settledIn graph w) w' batch)
      (fun _ _ => True)
      (executeGraph engine context graph step) w := by
  have hInv :
      BatchInvariant engine context graph (settledIn graph w) w
        { status := latestToolStatuses context graph.graphId
          attempts :=
            startedAttemptCounts context graph.graphId
          newResults := [] } :=
    { reflects := hEntry
      kept := fun _ _ => rfl
      complete := fun _ h => .inl h
      nodup := by simp
      owned := by simp
      fresh := by simp
      agrees := by simp
      earned := by simp }
  have hRun :
      Safe host (FreshCheckpoint graph.graphId)
        (fun final w' =>
          BatchInvariant engine context graph (settledIn graph w) w' final ∧
            Quiescent graph final.status)
        (fun _ _ => True)
        (runGraph engine context graph step
          (graph.nodes.length + 1)
          { status :=
              latestToolStatuses context graph.graphId
            attempts :=
              startedAttemptCounts context graph.graphId
            newResults := [] }) w :=
    Safe.mono (fun _ _ h => h.1)
      (fun _ _ h => ⟨h.1, h.2.2⟩) (fun _ _ _ => trivial)
      (Safe.and (runGraph_settles hNodup hInv)
        (runGraph_ends (unsettledCount_lt_fuel _)))
  unfold executeGraph
  refine Safe.bind hRun ?_
  rintro final w' ⟨hFinal, hQuiet⟩
  have hMem : ∀ result,
      result ∈ orderedResults graph final.newResults ↔
        result ∈ final.newResults :=
    fun result =>
      mem_orderedResults_iff hFinal.nodup hFinal.owned
  refine
    { quiescent := hQuiet.congr ?_
      kept := hFinal.kept
      nodup := ?_
      owned := ?_
      covers := ?_
      agrees := ?_
      earned := ?_ }
  · intro callId
    rw [hFinal.reflects, settled_settledIn]
  · exact hNodup.sublist (orderedResults_sublist _ _)
  · intro result hResult
    exact hFinal.owned result ((hMem result).mp hResult)
  · intro callId
    simp only [hMem]
    constructor
    · rintro ⟨result, hResult, hId⟩
      subst hId
      rcases hFinal.agrees result hResult with
        ⟨status, hStatus, _⟩
      exact ⟨hFinal.fresh result hResult, by simp [hStatus]⟩
    · rintro ⟨hNone, hSome⟩
      rcases hFinal.complete callId hSome with hOld | hNew
      · exact absurd hNone hOld
      · exact hNew
  · intro result hResult
    exact hFinal.agrees result ((hMem result).mp hResult)
  · intro callId hNone hSucceeded
    rcases hFinal.complete callId (by simp [hSucceeded]) with
      hOld | hNew
    · exact absurd hNone hOld
    · rcases hNew with ⟨result, hResult, hId⟩
      subst hId
      rcases hFinal.agrees result hResult with
        ⟨status, hStatus, hIff⟩
      rw [hSucceeded] at hStatus
      cases hStatus
      exact hFinal.earned result hResult (hIff.mp rfl)

end Report

end RainEngine
