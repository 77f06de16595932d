import RainEngine.Batches.Graphs
import RainEngine.Batches.Settlement

/-
  This file follows a batch from its new graph to the results
  it appends: a fresh batch starts with no call settled, gives
  each call at most one terminal checkpoint, and ends with a
  report on its graph.

  Key definitions include:
    * `runBatch`
    * `terminalCheckpointIds`
    * `FreshBatch`
    * `Recorded`

  Key theorems include:
    * `executeCalls_eq`
    * `recordResults_appends`
    * `executePlannedCalls_reports`
-/

namespace RainEngine

open Effects

------------------------------------------------------------
-- Running A Batch And Recording Its Results
------------------------------------------------------------

/- The results a batch hands back to its caller. -/
def BatchExecution.results :
    BatchExecution → List ToolResultRecord
| .executed batch => batch.results
| .suspended _ _ _ => []

/- Run a batch of calls and append its results. -/
def runBatch
    (engine : AgentEngine)
    (context : AgentContext)
    (step : Nat)
    (calls : List PlannedSkillCall)
    (approvalOverride : Bool) :
    EngineM (BatchExecution × Except MemoryError AgentContext) :=
  executePlannedCalls engine context step calls
      approvalOverride >>= fun execution =>
    recordResults execution.results context >>=
      fun recorded => pure (execution, recorded)

/- The decision path runs its batch this way. -/
theorem executeCalls_eq
    (engine : AgentEngine)
    (context : AgentContext)
    (calls : List PlannedSkillCall)
    (stepsExecuted : Nat)
    (emittedEvents : List KernelEventRecord) :
    executeCalls engine context calls stepsExecuted
        emittedEvents =
      (runBatch engine context stepsExecuted calls false >>=
        fun ran =>
          match ran with
          | (.executed _, .error error) =>
              pure (outcomeOnly
                (storageFailureOutcome
                  context.metadata.triggerId
                  (stepsExecuted + 1) error)
                emittedEvents)
          | (.executed _, .ok _) =>
              pure (progressResult emittedEvents)
          | (.suspended reason pendingCalls resumeToken, _) =>
              suspend engine context stepsExecuted reason
                pendingCalls resumeToken emittedEvents) := by
  unfold executeCalls runBatch
  rw [Program.bind_assoc]
  congr 1
  funext execution
  cases execution with
  | executed batch =>
      rw [Program.bind_assoc]
      refine congrArg
        (recordResults batch.results context >>= ·)
        (funext ?_)
      intro recorded
      cases recorded <;> rfl
  | suspended reason pendingCalls resumeToken => rfl

/- Recorded results are exactly what the ledger gains. -/
theorem recordResults_appends
    {results : List ToolResultRecord}
    {context : AgentContext}
    {w : World} :
    Safe host
      (fun _ op => ∃ result ∈ results,
        op = .append (.toolResult result))
      (fun r w' => ∀ context', r = .ok context' →
        w'.ledger =
          w.ledger ++ results.map SessionRecord.toolResult)
      (fun _ _ => False)
      (recordResults results context) w := by
  induction results generalizing context w with
  | nil => simp [recordResults]
  | cons result rest ih =>
      unfold recordResults
      rw [Safe.bind_iff]
      apply safe_append ⟨result, by simp, rfl⟩
      · refine Safe.mono ?_ ?_ (fun _ _ h => h) ih
        · rintro _ _ ⟨other, hMem, hOp⟩
          exact ⟨other, by simp [hMem], hOp⟩
        · intro r w' hLedger context' hOk
          rw [hLedger context' hOk]
          simp
      · simp

------------------------------------------------------------
-- Terminal Checkpoints
------------------------------------------------------------

/- The call ids of the terminal checkpoints of a graph. -/
def terminalCheckpointIds
    (graphId : String)
    (records : List SessionRecord) :
    List String :=
  (records.filterMap SessionRecord.asToolNodeCheckpoint).filterMap
    fun checkpoint =>
      if checkpoint.graphId = graphId ∧
          checkpoint.status.isTerminal then
        some checkpoint.callId
      else none

section Checkpoints

variable {graphId : String}
variable {records : List SessionRecord}

theorem mem_terminalCheckpointIds_iff
    {callId : String} :
    callId ∈ terminalCheckpointIds graphId records ↔
      settledStatus graphId records callId ≠ none := by
  rw [← mem_terminalCallIds_iff]
  exact List.mem_toFinset.symm

theorem terminalCheckpointIds_append
    (graphId : String)
    (records more : List SessionRecord) :
    terminalCheckpointIds graphId (records ++ more) =
      terminalCheckpointIds graphId records ++
        terminalCheckpointIds graphId more := by
  unfold terminalCheckpointIds
  rw [List.filterMap_append, List.filterMap_append]

/- A graph gets at most one terminal checkpoint a call. -/
theorem nodup_terminalCheckpointIds_next
    {w : World}
    {op : Op}
    {a : Answer op}
    (hNodup :
      (terminalCheckpointIds graphId w.ledger).Nodup)
    (hFresh : FreshCheckpoint graphId w op) :
    (terminalCheckpointIds graphId
      (hostNext w op a).ledger).Nodup := by
  rcases hostNext_ledger w op a with hSame | hAppend
  · rw [hSame]
    exact hNodup
  · rcases hAppend with ⟨record, hOp, hLedger⟩
    rw [hLedger, terminalCheckpointIds_append]
    cases record with
    | toolNodeCheckpoint checkpoint =>
        by_cases hMatch : checkpoint.graphId = graphId ∧
            checkpoint.status.isTerminal = true
        · have hNone := hFresh checkpoint hOp hMatch.1
          have hNew :
              checkpoint.callId ∉
                terminalCheckpointIds graphId w.ledger := by
            intro hMem
            exact mem_terminalCheckpointIds_iff.mp hMem hNone
          have hOne :
              terminalCheckpointIds graphId
                  [.toolNodeCheckpoint checkpoint] =
                [checkpoint.callId] := by
            simp [terminalCheckpointIds, hMatch,
              SessionRecord.asToolNodeCheckpoint]
          rw [hOne]
          exact List.Nodup.append hNodup (by simp)
            (by simpa using hNew)
        · have hZero :
              terminalCheckpointIds graphId
                  [.toolNodeCheckpoint checkpoint] = [] := by
            simp only [terminalCheckpointIds, hMatch,
              SessionRecord.asToolNodeCheckpoint,
              List.filterMap_cons, List.filterMap_nil,
              if_false]
          rw [hZero, List.append_nil]
          exact hNodup
    | _ =>
        exact (List.append_nil _).symm ▸ hNodup

end Checkpoints

------------------------------------------------------------
-- Fresh Batches
------------------------------------------------------------

/-
  The batch gets a new graph, and neither the kernel nor the
  store has a checkpoint under the id of that graph.
-/
structure FreshBatch
    (context : AgentContext)
    (step : Nat)
    (calls : List PlannedSkillCall)
    (w : World) : Prop where
  new : NewGraph context step calls
  untouched :
    ∀ checkpoint,
      .toolNodeCheckpoint checkpoint ∈
          context.records ++ w.ledger →
        checkpoint.graphId ≠
          graphIdFor context.metadata.triggerId step

section Fresh

variable {engine : AgentEngine}
variable {context : AgentContext}
variable {step : Nat}
variable {calls : List PlannedSkillCall}
variable {approvalOverride : Bool}
variable {w w' : World}

theorem FreshBatch.newestStatus_eq
    (hFresh : FreshBatch context step calls w)
    (callId : String) :
    newestStatus (newGraph context step calls).graphId
      context.records callId = none := by
  unfold newestStatus
  rw [List.findSomeRev?_eq_findSome?_reverse,
    List.findSome?_eq_none_iff]
  intro record hMem
  cases record with
  | toolNodeCheckpoint checkpoint =>
      have hOther := hFresh.untouched checkpoint
        (List.mem_append_left _ (List.mem_reverse.mp hMem))
      have hNo : ¬(checkpoint.graphId =
            (newGraph context step calls).graphId ∧
          checkpoint.callId = callId) :=
        fun h => hOther h.1
      simp only [checkpointStatus, hNo, if_false]
  | _ => rfl

theorem FreshBatch.settledStatus_eq
    (hFresh : FreshBatch context step calls w)
    (callId : String) :
    settledStatus (newGraph context step calls).graphId
      w.ledger callId = none := by
  by_contra hSome
  rcases settledStatus_ne_none_iff.mp hSome with
    ⟨checkpoint, hMem, hGraph, _⟩
  exact hFresh.untouched checkpoint
    (List.mem_append_right _ hMem) hGraph

/- The ledger a fresh batch starts from is latched. -/
theorem FreshBatch.latched
    (hFresh : FreshBatch context step calls w) :
    Latched (newGraph context step calls).graphId
      w.ledger := by
  intro callId
  have hNewest :
      newestStatus (newGraph context step calls).graphId
        w.ledger callId = none := by
    unfold newestStatus
    rw [List.findSomeRev?_eq_findSome?_reverse,
      List.findSome?_eq_none_iff]
    intro record hMem
    cases record with
    | toolNodeCheckpoint checkpoint =>
        have hOther := hFresh.untouched checkpoint
          (List.mem_append_right _ (List.mem_reverse.mp hMem))
        exact if_neg fun h => hOther h.1
    | _ => rfl
  rw [hNewest, hFresh.settledStatus_eq]
  rfl

theorem newGraph_callIds :
    (newGraph context step calls).nodes.map (·.callId) =
      calls.map (·.callId) := by
  unfold newGraph
  apply List.ext_getElem
  · simp
  · intro i hLeft hRight
    simp [PlannedSkillCall.toNode]

/- Queueing the nodes of a graph settles none of them. -/
theorem queueNodes_settles
    {graph : ToolExecutionGraph}
    {nodes : List ToolNode}
    (hOpen : ∀ callId, settledIn graph w callId = none) :
    Safe host (FreshCheckpoint graph.graphId)
      (fun _ w' => ∀ callId, settledIn graph w' callId = none)
      (fun _ _ => True) (queueNodes graph nodes) w := by
  induction nodes generalizing w with
  | nil => exact hOpen
  | cons node rest ih =>
      unfold queueNodes
      rw [Safe.bind_iff]
      apply safe_runningCheckpoint (hOpen node.callId) rfl
      intro w' hSame
      apply ih
      rw [hSame]
      exact hOpen

/- A fresh batch ends with a report on its new graph. -/
theorem executePlannedCalls_settles
    (hRuns : ¬Waits engine calls approvalOverride)
    (hFresh : FreshBatch context step calls w)
    (hNodup : (calls.map (·.callId)).Nodup) :
    Safe host
      (FreshCheckpoint (newGraph context step calls).graphId)
      (fun r w' => ∃ batch, r = .executed batch ∧
        BatchReport engine context
          (newGraph context step calls) (fun _ => none)
          w' batch)
      (fun _ _ => True)
      (executePlannedCalls engine context step calls
        approvalOverride) w := by
  rw [executePlannedCalls_eq hRuns,
    hFresh.new.existingOrNewGraph_eq,
    hFresh.new.storeGraph_eq, Program.bind_assoc,
    Safe.bind_iff]
  refine safe_appendOrFail
    (freshCheckpoint_append_other rfl) ?_
    (fun _ => trivial)
  refine Safe.bind (queueNodes_settles ?_) ?_
  · intro callId
    unfold settledIn
    rw [World.append_ledger, settledStatus_append_other rfl]
    exact hFresh.settledStatus_eq callId
  · intro _ w' hOpen
    have hEntry :
        settledIn (newGraph context step calls) w' =
          fun _ => none :=
      funext hOpen
    refine Safe.bind (executeGraph_settles ?_ ?_) ?_
    · rw [newGraph_callIds]
      exact hNodup
    · intro callId
      rw [latestToolStatuses_eq, hFresh.newestStatus_eq,
        hOpen callId]
      rfl
    · intro batch w'' hBatch
      rw [hEntry] at hBatch
      exact ⟨batch, rfl, hBatch⟩

/-
  A fresh batch with distinct call ids ends with a report on
  its new graph, and with one terminal checkpoint a call.
-/
theorem executePlannedCalls_reports
    (hRuns : ¬Waits engine calls approvalOverride)
    (hFresh : FreshBatch context step calls w)
    (hNodup : (calls.map (·.callId)).Nodup) :
    Safe host (fun _ _ => True)
      (fun r w' => ∃ batch, r = .executed batch ∧
        BatchReport engine context
          (newGraph context step calls) (fun _ => none)
          w' batch ∧
        (terminalCheckpointIds
          (newGraph context step calls).graphId
          w'.ledger).Nodup ∧
        Stored (newGraph context step calls) w w')
      (fun _ _ => True)
      (executePlannedCalls engine context step calls
        approvalOverride) w := by
  have hOnce :
      (terminalCheckpointIds
        (newGraph context step calls).graphId
        w.ledger).Nodup := by
    have hNil :
        terminalCheckpointIds
          (newGraph context step calls).graphId
          w.ledger = [] := by
      rw [List.eq_nil_iff_forall_not_mem]
      intro callId hMem
      exact mem_terminalCheckpointIds_iff.mp hMem
        (hFresh.settledStatus_eq callId)
    rw [hNil]
    exact List.nodup_nil
  have hFramed := Safe.frame
    (I := fun w' : World => (terminalCheckpointIds
      (newGraph context step calls).graphId
      w'.ledger).Nodup)
    (fun _ _ _ hInv hOp _ =>
      nodup_terminalCheckpointIds_next hInv hOp)
    hOnce
    (executePlannedCalls_settles hRuns hFresh hNodup)
  refine Safe.mono (fun _ _ _ => trivial) ?_
    (fun _ _ _ => trivial)
    (Safe.and hFramed
      (executePlannedCalls_new hRuns hFresh.new))
  rintro r w' ⟨⟨⟨batch, hEq, hBatch⟩, hOnce'⟩, _, hStored⟩
  exact ⟨batch, hEq, hBatch, hOnce', hStored⟩

end Fresh

------------------------------------------------------------
-- Recorded Results
------------------------------------------------------------

section Ledgers

variable {graphId : String}

theorem terminalCheckpointIds_results
    (results : List ToolResultRecord) :
    terminalCheckpointIds graphId
      (results.map SessionRecord.toolResult) = [] := by
  unfold terminalCheckpointIds
  rw [List.filterMap_map]
  simp [SessionRecord.asToolNodeCheckpoint,
    Function.comp_def]

theorem toolResults_append
    (records more : List SessionRecord) :
    toolResults (records ++ more) =
      toolResults records ++ toolResults more :=
  List.filterMap_append

theorem toolResults_results
    (results : List ToolResultRecord) :
    toolResults (results.map SessionRecord.toolResult) =
      results := by
  unfold toolResults
  rw [List.filterMap_map]
  simp [SessionRecord.asToolResult, Function.comp_def]

theorem toolResults_of_batchRecords
    {records : List SessionRecord}
    (hKind : ∀ record ∈ records, IsBatchRecord record) :
    toolResults records = [] := by
  unfold toolResults
  rw [List.filterMap_eq_nil_iff]
  intro record hMem
  exact (hKind record hMem).not_result

end Ledgers

/- The ledger after a batch and the results it recorded. -/
structure Recorded
    (graph : ToolExecutionGraph)
    (added : List SessionRecord)
    (results : List ToolResultRecord)
    (w w' : World) : Prop where
  ledger :
    w'.ledger =
      w.ledger ++ .toolExecutionGraph graph ::
        (added ++ results.map SessionRecord.toolResult)
  kind : ∀ record ∈ added, IsBatchRecord record

namespace Recorded

variable {context : AgentContext}
variable {step : Nat}
variable {calls : List PlannedSkillCall}
variable {graph : ToolExecutionGraph}
variable {added : List SessionRecord}
variable {results : List ToolResultRecord}
variable {w w' : World}

/- The graph is active while terminal checkpoints lack. -/
theorem active_eq
    (hRecorded : Recorded graph added results w w') :
    activeToolExecutionGraph w'.ledger =
      if (terminalCallIds graph.graphId
            (sinceLastOutcome w.ledger ++
              .toolExecutionGraph graph ::
                (added ++ results.map
                  SessionRecord.toolResult))).card <
          graph.nodes.length then
        some graph
      else none := by
  rw [hRecorded.ledger]
  apply activeToolExecutionGraph_append
  · intro record hMem
    rcases List.mem_append.mp hMem with hBatch | hResult
    · exact (hRecorded.kind record hBatch).not_outcome
    · rcases List.mem_map.mp hResult with ⟨_, _, hEq⟩
      subst hEq
      rfl
  · intro record hMem
    rcases List.mem_append.mp hMem with hBatch | hResult
    · exact (hRecorded.kind record hBatch).not_graph
    · rcases List.mem_map.mp hResult with ⟨_, _, hEq⟩
      subst hEq
      rfl

/- Every settled call of a fresh graph counts for it. -/
theorem terminalCallIds_eq
    (hFresh : FreshBatch context step calls w)
    (hRecorded :
      Recorded (newGraph context step calls) added results
        w w') :
    terminalCallIds (newGraph context step calls).graphId
        (sinceLastOutcome w.ledger ++
          .toolExecutionGraph (newGraph context step calls) ::
            (added ++ results.map
              SessionRecord.toolResult)) =
      (terminalCheckpointIds
        (newGraph context step calls).graphId
        w'.ledger).toFinset := by
  ext callId
  rw [List.mem_toFinset, mem_terminalCheckpointIds_iff,
    mem_terminalCallIds_iff, settledStatus_ne_none_iff,
    settledStatus_ne_none_iff, hRecorded.ledger]
  constructor
  · rintro ⟨checkpoint, hMem, hMatch⟩
    refine ⟨checkpoint, ?_, hMatch⟩
    rcases List.mem_append.mp hMem with hOld | hNew
    · exact List.mem_append_left _
        ((sinceLastOutcome_suffix _).subset hOld)
    · exact List.mem_append_right _ hNew
  · rintro ⟨checkpoint, hMem, hMatch⟩
    refine ⟨checkpoint, ?_, hMatch⟩
    rcases List.mem_append.mp hMem with hOld | hNew
    · exact absurd hMatch.1 (hFresh.untouched checkpoint
        (List.mem_append_right _ hOld))
    · exact List.mem_append_right _ hNew

theorem toolResults_drop
    (hRecorded : Recorded graph added results w w') :
    toolResults (w'.ledger.drop w.ledger.length) =
      results := by
  have hDrop :
      w'.ledger.drop w.ledger.length =
        [.toolExecutionGraph graph] ++
          (added ++ results.map SessionRecord.toolResult) := by
    rw [hRecorded.ledger, List.drop_left]
    rfl
  rw [hDrop, toolResults_append, toolResults_append,
    toolResults_of_batchRecords hRecorded.kind,
    toolResults_results]
  rfl

theorem terminalCheckpointIds_before
    {before : World}
    (hBefore :
      before.ledger = w.ledger ++
        .toolExecutionGraph graph :: added)
    (hRecorded : Recorded graph added results w w') :
    terminalCheckpointIds graph.graphId w'.ledger =
      terminalCheckpointIds graph.graphId before.ledger := by
  have hLedger :
      w'.ledger = before.ledger ++
        results.map SessionRecord.toolResult := by
    rw [hRecorded.ledger, hBefore]
    simp
  rw [hLedger, terminalCheckpointIds_append,
    terminalCheckpointIds_results, List.append_nil]

end Recorded

end RainEngine
