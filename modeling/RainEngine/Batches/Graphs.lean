import RainEngine.Batches.Calm
import RainEngine.Kernel.Script

/-
  This file says when a batch of calls gets a tool graph of
  its own. The kernel looks a graph up by step and call ids
  over the whole history, and names a new one by trigger and
  step, so a batch may be run on an older graph, or without a
  stored graph.

  Key definitions include:
    * `NewGraph`
    * `OwnsGraph`
    * `Waits`

  Key theorems include:
    * `executePlannedCalls_new`
    * `executePlannedCalls_collision`
    * `ownsGraph_iff`
-/

namespace RainEngine

open Effects

------------------------------------------------------------
-- Batch Records
------------------------------------------------------------

/- The records a batch appends beside its graph. -/
def IsBatchRecord : SessionRecord → Prop
| .toolNodeCheckpoint _ => True
| .skillInputValidation _ => True
| .toolCall _ => True
| _ => False

/- The requests of a loop over the nodes of a graph. -/
def LoopRequest
    (engine : AgentEngine)
    (context : AgentContext)
    (graph : ToolExecutionGraph)
    (op : Op) :
    Prop :=
  op = .outOfFuel ∨ BatchRequest engine context graph op

section Requests

variable {engine : AgentEngine}
variable {context : AgentContext}
variable {graph : ToolExecutionGraph}

theorem LoopRequest.isBatchRecord
    {record : SessionRecord}
    (hRequest :
      LoopRequest engine context graph (.append record)) :
    IsBatchRecord record := by
  rcases hRequest with hFuel | hBatch
  · cases hFuel
  · cases hBatch <;> trivial

theorem LoopRequest.checkpoint_graphId
    {checkpoint : ToolNodeCheckpointRecord}
    (hRequest : LoopRequest engine context graph
      (.append (.toolNodeCheckpoint checkpoint))) :
    checkpoint.graphId = graph.graphId := by
  rcases hRequest with hFuel | hBatch
  · cases hFuel
  · cases hBatch with
    | checkpoint _ hGraph _ => exact hGraph

theorem IsBatchRecord.not_graph
    {record : SessionRecord}
    (hRecord : IsBatchRecord record) :
    record.asToolExecutionGraph = none := by
  cases record <;> first | rfl | cases hRecord

theorem IsBatchRecord.not_outcome
    {record : SessionRecord}
    (hRecord : IsBatchRecord record) :
    record.isOutcome = false := by
  cases record <;> first | rfl | cases hRecord

theorem IsBatchRecord.not_result
    {record : SessionRecord}
    (hRecord : IsBatchRecord record) :
    record.asToolResult = none := by
  cases record <;> first | rfl | cases hRecord

end Requests

------------------------------------------------------------
-- New Graphs
------------------------------------------------------------

/- The graphs recorded in a list of records. -/
def toolGraphs
    (records : List SessionRecord) :
    List ToolExecutionGraph :=
  records.filterMap SessionRecord.asToolExecutionGraph

theorem mem_toolGraphs
    {records : List SessionRecord}
    {graph : ToolExecutionGraph} :
    graph ∈ toolGraphs records ↔
      .toolExecutionGraph graph ∈ records := by
  unfold toolGraphs
  rw [List.mem_filterMap]
  constructor
  · rintro ⟨record, hMem, hAs⟩
    cases record with
    | toolExecutionGraph _ =>
        cases hAs
        exact hMem
    | _ => cases hAs
  · intro hMem
    exact ⟨_, hMem, rfl⟩

/-
  No graph the kernel knows of has the batch's step and call
  ids, or the id the batch's own graph would get.
-/
structure NewGraph
    (context : AgentContext)
    (step : Nat)
    (calls : List PlannedSkillCall) : Prop where
  unanswered :
    ∀ graph ∈ toolGraphs context.records,
      graph.answersTo step calls = false
  unused :
    ∀ graph ∈ toolGraphs context.records,
      graph.graphId ≠
        graphIdFor context.metadata.triggerId step

section NewGraph

variable {engine : AgentEngine}
variable {context : AgentContext}
variable {step : Nat}
variable {calls : List PlannedSkillCall}

/- The graph a lookup returns is a recorded one. -/
theorem existingOrNewGraph_cases
    (context : AgentContext)
    (step : Nat)
    (calls : List PlannedSkillCall) :
    (existingOrNewGraph context step calls ∈
        toolGraphs context.records ∧
      (existingOrNewGraph context step calls).answersTo
        step calls = true) ∨
      (existingOrNewGraph context step calls =
          newGraph context step calls ∧
        ∀ graph ∈ toolGraphs context.records,
          graph.answersTo step calls = false) := by
  unfold existingOrNewGraph
  rw [List.findSomeRev?_eq_findSome?_reverse]
  split
  · rename_i graph hFound
    rcases List.exists_of_findSome?_eq_some hFound with
      ⟨record, hMem, hFilter⟩
    rw [Option.filter_eq_some_iff] at hFilter
    refine .inl ⟨?_, hFilter.2⟩
    exact List.mem_filterMap.mpr
      ⟨record, List.mem_reverse.mp hMem, hFilter.1⟩
  · rename_i hNone
    refine .inr ⟨rfl, ?_⟩
    intro graph hMem
    have hRecord := List.findSome?_eq_none_iff.mp hNone
      (.toolExecutionGraph graph)
      (List.mem_reverse.mpr (mem_toolGraphs.mp hMem))
    simpa [SessionRecord.asToolExecutionGraph,
      Option.filter] using hRecord

/- The active graph is the newest one of the ledger. -/
theorem findSomeRev?_of_active
    {records : List SessionRecord}
    {graph : ToolExecutionGraph}
    (hActive :
      activeToolExecutionGraph records = some graph) :
    records.findSomeRev? SessionRecord.asToolExecutionGraph =
      some graph := by
  have hSlice :
      (sinceLastOutcome records).findSomeRev?
        SessionRecord.asToolExecutionGraph = some graph := by
    unfold activeToolExecutionGraph at hActive
    dsimp only at hActive
    split at hActive
    · cases hActive
    · rename_i newest hNewest
      split at hActive
      · rw [hNewest]
        exact hActive
      · cases hActive
  rcases sinceLastOutcome_suffix records with ⟨before, hEq⟩
  rw [List.findSomeRev?_eq_findSome?_reverse] at hSlice ⊢
  rw [← hEq, List.reverse_append, List.findSome?_append,
    hSlice]
  rfl

/- Planning the active graph's calls anew finds the graph. -/
theorem existingOrNewGraph_active
    {graph : ToolExecutionGraph}
    (hActive :
      activeToolExecutionGraph context.records = some graph) :
    existingOrNewGraph context graph.step
      (graph.nodes.map ToolNode.toCall) = graph := by
  have hNewest := findSomeRev?_of_active hActive
  have hAnswers : graph.answersTo graph.step
      (graph.nodes.map ToolNode.toCall) = true := by
    unfold ToolExecutionGraph.answersTo
    rw [List.map_map]
    simp [Function.comp_def, ToolNode.toCall]
  have hFound :
      context.records.findSomeRev? (fun record =>
        record.asToolExecutionGraph.filter
          (·.answersTo graph.step
            (graph.nodes.map ToolNode.toCall))) =
        some graph := by
    rw [List.findSomeRev?_eq_findSome?_reverse] at hNewest ⊢
    rcases List.findSome?_eq_some_iff.mp hNewest with
      ⟨later, record, before, hSplit, hRecord, hNone⟩
    rw [hSplit]
    refine List.findSome?_eq_some_iff.mpr
      ⟨later, record, before, rfl, ?_, ?_⟩
    · rw [hRecord]
      simp [Option.filter, hAnswers]
    · intro other hMem
      rw [hNone other hMem]
      rfl
  unfold existingOrNewGraph
  rw [hFound]

/- A graph is stored only when its id is not in use. -/
theorem storeGraph_eq
    (context : AgentContext)
    (graph : ToolExecutionGraph) :
    storeGraph context graph =
      if ∃ other ∈ toolGraphs context.records,
          other.graphId = graph.graphId then
        pure ()
      else
        appendOrFail (.toolExecutionGraph graph) >>=
          fun _ => queueNodes graph graph.nodes := by
  have hIff :
      (context.records.any fun record =>
        record.asToolExecutionGraph.any
          (·.graphId = graph.graphId)) = true ↔
        ∃ other ∈ toolGraphs context.records,
          other.graphId = graph.graphId := by
    rw [List.any_eq_true]
    unfold toolGraphs
    constructor
    · rintro ⟨record, hMem, hAny⟩
      cases hAs : record.asToolExecutionGraph with
      | none => simp [hAs] at hAny
      | some other =>
          refine ⟨other, List.mem_filterMap.mpr
            ⟨record, hMem, hAs⟩, ?_⟩
          simpa [hAs] using hAny
    · rintro ⟨other, hMem, hId⟩
      rcases List.mem_filterMap.mp hMem with
        ⟨record, hRecord, hAs⟩
      exact ⟨record, hRecord, by simp [hAs, hId]⟩
  unfold storeGraph
  simp only [hIff]

theorem NewGraph.existingOrNewGraph_eq
    (hNew : NewGraph context step calls) :
    existingOrNewGraph context step calls =
      newGraph context step calls := by
  rcases existingOrNewGraph_cases context step calls with
    hOld | hFresh
  · rcases hOld with ⟨hMem, hAnswers⟩
    rw [hNew.unanswered _ hMem] at hAnswers
    cases hAnswers
  · exact hFresh.1

theorem NewGraph.storeGraph_eq
    (hNew : NewGraph context step calls) :
    storeGraph context (newGraph context step calls) =
      appendOrFail (.toolExecutionGraph
          (newGraph context step calls)) >>=
        fun _ => queueNodes (newGraph context step calls)
          (newGraph context step calls).nodes := by
  rw [RainEngine.storeGraph_eq, if_neg]
  rintro ⟨other, hMem, hId⟩
  exact hNew.unused other hMem hId

/- Without a new graph nothing is stored for the batch. -/
theorem storeGraph_collision
    (hOld : ¬NewGraph context step calls) :
    storeGraph context
      (existingOrNewGraph context step calls) = pure () := by
  rw [storeGraph_eq, if_pos]
  rcases existingOrNewGraph_cases context step calls with
    hFound | hFresh
  · exact ⟨_, hFound.1, rfl⟩
  · rcases hFresh with ⟨hEq, hNone⟩
    rw [hEq]
    by_contra hUnused
    refine hOld ⟨hNone, ?_⟩
    intro graph hMem hId
    exact hUnused ⟨graph, hMem, hId⟩

end NewGraph

------------------------------------------------------------
-- Running A Batch
------------------------------------------------------------

/- The batch waits for a human instead of running. -/
def Waits
    (engine : AgentEngine)
    (calls : List PlannedSkillCall)
    (approvalOverride : Bool) :
    Prop :=
  approvalOverride = false ∧ approvalCalls engine calls ≠ []

/- The ledger holds the graph and the batch's own records. -/
def Stored
    (graph : ToolExecutionGraph)
    (w w' : World) :
    Prop :=
  Grown IsBatchRecord (w.append (.toolExecutionGraph graph)) w'

section Running

variable {engine : AgentEngine}
variable {context : AgentContext}
variable {step : Nat}
variable {calls : List PlannedSkillCall}
variable {approvalOverride : Bool}
variable {w : World}

/- A batch that waits only makes up a resume token. -/
theorem executePlannedCalls_waits
    (context : AgentContext)
    (step : Nat)
    (hWaits : Waits engine calls approvalOverride) :
    Safe host (fun _ op => op = .newUuid)
      (fun r w' => w'.ledger = w.ledger ∧
        ∃ token, r = .suspended
          (.humanApprovalRequired (approvalCalls engine calls))
          calls token)
      (fun _ w' => w'.ledger = w.ledger)
      (executePlannedCalls engine context step calls
        approvalOverride) w := by
  have hYes : (!approvalOverride) = true ∧
      approvalCalls engine calls ≠ [] :=
    ⟨by simp [hWaits.1], hWaits.2⟩
  unfold executePlannedCalls
  rw [if_pos hYes, Safe.bind_iff]
  refine safe_newUuid rfl ?_
  intro token _
  exact ⟨rfl, token, rfl⟩

theorem executePlannedCalls_eq
    (hRuns : ¬Waits engine calls approvalOverride) :
    executePlannedCalls engine context step calls
        approvalOverride =
      storeGraph context
          (existingOrNewGraph context step calls) >>=
        fun _ => executeGraph engine context
            (existingOrNewGraph context step calls) step >>=
          fun batch => pure (.executed batch) := by
  have hNo : ¬((!approvalOverride) = true ∧
      approvalCalls engine calls ≠ []) := by
    rintro ⟨hOverride, hWaiting⟩
    exact hRuns ⟨by simpa using hOverride, hWaiting⟩
  unfold executePlannedCalls
  rw [if_neg hNo]

/- What a batch may ask for, whatever graph it gets. -/
def PlannedRequest
    (engine : AgentEngine)
    (context : AgentContext)
    (graph : ToolExecutionGraph)
    (op : Op) :
    Prop :=
  op = .append (.toolExecutionGraph graph) ∨
    LoopRequest engine context graph op

/- A batch that runs asks on behalf of its graph only. -/
theorem uses_executePlannedCalls
    (hRuns : ¬Waits engine calls approvalOverride) :
    Uses
      (PlannedRequest engine context
        (existingOrNewGraph context step calls))
      (fun r => ∃ batch, r = BatchExecution.executed batch)
      (executePlannedCalls engine context step calls
        approvalOverride) := by
  have hStore :
      Uses
        (PlannedRequest engine context
          (existingOrNewGraph context step calls))
        (fun _ => True)
        (storeGraph context
          (existingOrNewGraph context step calls)) := by
    rw [storeGraph_eq]
    split
    · trivial
    · rw [Uses.bind_iff]
      apply uses_appendOrFail (.inl rfl)
      exact Uses.mono (fun _ h => .inr (.inr h))
        (fun _ _ => trivial) (uses_queueNodes (fun _ h => h))
  rw [executePlannedCalls_eq hRuns]
  refine Uses.bind hStore ?_
  intro _ _
  refine Uses.bind (Uses.mono (fun _ h => .inr h)
    (fun _ h => h) uses_executeGraph) ?_
  intro batch _
  exact ⟨batch, rfl⟩

/-
  A batch with a new graph stores it first; every later
  request belongs to this graph.
-/
theorem executePlannedCalls_new
    (hRuns : ¬Waits engine calls approvalOverride)
    (hNew : NewGraph context step calls) :
    Safe host
      (fun w' op =>
        op = .append (.toolExecutionGraph
            (newGraph context step calls)) ∨
          (Stored (newGraph context step calls) w w' ∧
            LoopRequest engine context
              (newGraph context step calls) op))
      (fun r w' => (∃ batch, r = .executed batch) ∧
        Stored (newGraph context step calls) w w')
      (fun _ _ => True)
      (executePlannedCalls engine context step calls
        approvalOverride) w := by
  have hLoop :
      Uses
        (LoopRequest engine context
          (newGraph context step calls))
        (fun r : BatchExecution =>
          ∃ batch, r = .executed batch)
        (queueNodes (newGraph context step calls)
            (newGraph context step calls).nodes >>=
          fun _ => executeGraph engine context
              (newGraph context step calls) step >>=
            fun batch => pure (.executed batch)) := by
    refine Uses.bind (Uses.mono (fun _ h => .inr h)
      (fun _ h => h) (uses_queueNodes (fun _ h => h))) ?_
    intro _ _
    refine Uses.bind uses_executeGraph ?_
    intro batch _
    exact ⟨batch, rfl⟩
  have hSafe :=
    Uses.safe (M := host)
      (P := fun w' op =>
        Stored (newGraph context step calls) w w' ∧
          LoopRequest engine context
            (newGraph context step calls) op)
      (I := fun w' =>
        Stored (newGraph context step calls) w w')
      hLoop (fun _ _ hStored hOp => ⟨hStored, hOp⟩)
      (fun w' op a hStored hOp _ =>
        Grown.trans hStored (.next (by
          intro record hEq
          subst hEq
          exact hOp.isBatchRecord)))
      (Grown.refl _)
  rw [executePlannedCalls_eq hRuns,
    hNew.existingOrNewGraph_eq, hNew.storeGraph_eq,
    Program.bind_assoc, Safe.bind_iff]
  refine safe_appendOrFail (.inl rfl) ?_ (fun _ => trivial)
  exact Safe.mono (fun _ _ h => .inr h) (fun _ _ h => h)
    (fun _ _ _ => trivial) hSafe

/- A batch that collides runs without storing a graph. -/
theorem executePlannedCalls_collision
    (hRuns : ¬Waits engine calls approvalOverride)
    (hOld : ¬NewGraph context step calls) :
    Safe host
      (fun _ op => LoopRequest engine context
        (existingOrNewGraph context step calls) op)
      (fun _ w' => Grown IsBatchRecord w w')
      (fun _ w' => Grown IsBatchRecord w w')
      (executePlannedCalls engine context step calls
        approvalOverride) w := by
  rw [executePlannedCalls_eq hRuns,
    storeGraph_collision hOld, Program.pure_bind,
    Safe.bind_iff]
  exact Safe.mono (fun _ _ h => h) (fun _ _ h => h.2)
    (fun _ _ h => h)
    (safe_grown uses_executeGraph
      (fun _ h => LoopRequest.isBatchRecord h))

section Calm

variable {C : World → (op : Op) → Answer op → Prop}
variable (hCalm : ∀ w op a, C w op a → Calm op a)

include hCalm

theorem storeGraph_calm
    (engine : AgentEngine)
    (graph : ToolExecutionGraph) :
    Safe (host.restrict C)
      (fun _ op => op ≠ .outOfFuel) (fun _ _ => True)
      (fun _ _ => False) (storeGraph context graph) w := by
  rw [storeGraph_eq]
  split
  · trivial
  · rw [Safe.bind_iff]
    refine safe_appendOrFail_answered
      (fun w op a h => (hCalm w op a h).storeAnswered)
      nofun ?_
    have hUses :
        Uses (BatchRequest engine context graph)
          (fun _ => True) (queueNodes graph graph.nodes) :=
      uses_queueNodes (fun _ h => h)
    exact Safe.mono (fun _ _ h => h.1) (fun _ _ _ => trivial)
      (fun _ _ h => h.2)
      ((safe_of_batchRequest hUses).restrict.and
        (queueNodes_calm hCalm))

/- Whatever its graph, a batch on a calm host is executed. -/
theorem executePlannedCalls_calm
    (hRuns : ¬Waits engine calls approvalOverride) :
    Safe (host.restrict C)
      (fun _ op => op ≠ .outOfFuel)
      (fun r _ => ∃ batch, r = BatchExecution.executed batch)
      (fun _ _ => False)
      (executePlannedCalls engine context step calls
        approvalOverride) w := by
  rw [executePlannedCalls_eq hRuns]
  refine Safe.bind (storeGraph_calm hCalm engine _) ?_
  intro _ w' _
  rw [Safe.bind_iff]
  refine Safe.mono (fun _ _ h => h.1) ?_ (fun _ _ h => h.2)
    (executeGraph_ends.restrict.and
      (executeGraph_calm hCalm))
  intro batch w'' _
  exact ⟨batch, rfl⟩

end Calm

/- A batch that need not wait can be run to its end. -/
theorem exists_executed
    (hRuns : ¬Waits engine calls approvalOverride) :
    ∃ steps w' batch,
      Exec host w
        (executePlannedCalls engine context step calls
          approvalOverride) steps w'
        (some (.ok (.executed batch))) := by
  have hSafe :
      Safe (host.restrict fun _ op a => Calm op a)
        (fun _ op => op ≠ .outOfFuel)
        (fun r _ => ∃ batch, r = BatchExecution.executed batch)
        (fun _ _ => False)
        (executePlannedCalls engine context step calls
          approvalOverride) w :=
    executePlannedCalls_calm (fun _ _ _ h => h) hRuns
  rcases hSafe.exists_exec
    (fun w op hOp => exists_calm_answer w op hOp) with
      ⟨steps, w', r, hExec⟩
  cases r with
  | error e => exact ((hSafe.result hExec).2 e rfl).elim
  | ok execution =>
      rcases hSafe.returns hExec with ⟨batch, hEq⟩
      subst hEq
      exact ⟨steps, w', batch, hExec.of_restrict⟩

end Running

------------------------------------------------------------
-- Owned Graphs
------------------------------------------------------------

/-
  The graph has been recorded since `w`, its id is in use for
  nothing else, and its nodes are the requested calls.
-/
structure OwnedGraph
    (calls : List PlannedSkillCall)
    (w w' : World)
    (graph : ToolExecutionGraph) : Prop where
  recorded :
    toolGraphs w'.ledger = toolGraphs w.ledger ++ [graph]
  unused :
    ∀ other ∈ toolGraphs w.ledger,
      other.graphId ≠ graph.graphId
  nodes : graph.nodes.map ToolNode.toCall = calls

/-
  The batch runs on a graph of its own: it is recorded before
  a node is started, and a batch that has been executed has
  been scheduled on it.
-/
structure OwnsGraph
    (calls : List PlannedSkillCall)
    (w : World)
    (steps : List (Step Op Answer World))
    (w' : World)
    (r : Option (Except EngineError BatchExecution)) :
    Prop where
  started :
    ∀ s ∈ steps, ∀ checkpoint,
      s.op = .append (.toolNodeCheckpoint checkpoint) →
        checkpoint.status = .started →
          ∃ graph, OwnedGraph calls w s.before graph ∧
            checkpoint.graphId = graph.graphId
  executed :
    ∀ batch, r = some (.ok (.executed batch)) →
      ∃ graph, OwnedGraph calls w w' graph

section Owned

variable {engine : AgentEngine}
variable {context : AgentContext}
variable {step : Nat}
variable {calls : List PlannedSkillCall}
variable {approvalOverride : Bool}
variable {w w' : World}

theorem toolGraphs_append
    (records more : List SessionRecord) :
    toolGraphs (records ++ more) =
      toolGraphs records ++ toolGraphs more :=
  List.filterMap_append

theorem toolGraphs_snoc
    {records : List SessionRecord}
    {record : SessionRecord} :
    toolGraphs (records ++ [record]) =
      toolGraphs records ++
        record.asToolExecutionGraph.toList := by
  rw [toolGraphs_append]
  rfl

theorem toolGraphs_subset
    (hGrows : w.ledger <+: w'.ledger) :
    toolGraphs w.ledger ⊆ toolGraphs w'.ledger := by
  intro graph hMem
  rw [mem_toolGraphs] at hMem ⊢
  exact hGrows.subset hMem

/- The records of a batch bring no graph. -/
theorem toolGraphs_of_batchRecords
    {records : List SessionRecord}
    (hKind : ∀ record ∈ records, IsBatchRecord record) :
    toolGraphs records = [] := by
  unfold toolGraphs
  rw [List.filterMap_eq_nil_iff]
  intro record hMem
  exact (hKind record hMem).not_graph

theorem Grown.toolGraphs_eq
    (hGrown : Grown IsBatchRecord w w') :
    toolGraphs w'.ledger = toolGraphs w.ledger := by
  rcases hGrown with ⟨added, hLedger, hKind⟩
  rw [hLedger, toolGraphs_append,
    toolGraphs_of_batchRecords hKind, List.append_nil]

@[simp] theorem PlannedSkillCall.toNode_toCall
    (providerOrder : Nat)
    (call : PlannedSkillCall) :
    (call.toNode providerOrder).toCall = call := by
  cases call
  simp [PlannedSkillCall.toNode, ToolNode.toCall,
    Function.comp_def]

/- The nodes of a new graph are the requested calls. -/
theorem newGraph_nodes_toCall :
    (newGraph context step calls).nodes.map
      ToolNode.toCall = calls := by
  unfold newGraph
  apply List.ext_getElem
  · simp
  · intro i hLeft hRight
    simp

theorem Stored.ownedGraph
    (hUnused :
      ∀ other ∈ toolGraphs w.ledger,
        other.graphId ≠
          graphIdFor context.metadata.triggerId step)
    (hStored : Stored (newGraph context step calls) w w') :
    OwnedGraph calls w w' (newGraph context step calls) where
  recorded := by
    rw [Grown.toolGraphs_eq hStored, World.append_ledger,
      toolGraphs_append]
    rfl
  unused := hUnused
  nodes := newGraph_nodes_toCall

/- A batch that collides owns no graph when it has run. -/
theorem not_ownsGraph_of_collision
    (hRuns : ¬Waits engine calls approvalOverride)
    (hOld : ¬NewGraph context step calls) :
    ¬(∀ steps w' r,
      Exec host w
        (executePlannedCalls engine context step calls
          approvalOverride) steps w' r →
        OwnsGraph calls w steps w' r) := by
  intro hOwns
  have hExists :
      ∃ steps w' batch,
        Exec host w
          (executePlannedCalls engine context step calls
            approvalOverride) steps w'
          (some (.ok (.executed batch))) :=
    exists_executed hRuns
  rcases hExists with ⟨steps, w', batch, hExec⟩
  rcases (hOwns _ _ _ hExec).executed batch rfl with
    ⟨graph, hOwned⟩
  have hRecorded := hOwned.recorded
  have hSame := ((executePlannedCalls_collision hRuns
    hOld).returns hExec).toolGraphs_eq
  rw [hSame] at hRecorded
  simp at hRecorded

/-
  A batch that is run gets a graph of its own, whatever the
  host answers, exactly when no graph the kernel knows of has
  its step and call ids, and none uses the id of its graph.
-/
theorem ownsGraph_iff
    (engine : AgentEngine)
    (context : AgentContext)
    (step : Nat)
    (calls : List PlannedSkillCall)
    (approvalOverride : Bool)
    (w : World) :
    (∀ steps w' r,
      Exec host w
        (executePlannedCalls engine context step calls
          approvalOverride) steps w' r →
        OwnsGraph calls w steps w' r) ↔
      (Waits engine calls approvalOverride ∨
        (NewGraph context step calls ∧
          ∀ other ∈ toolGraphs w.ledger,
            other.graphId ≠
              graphIdFor context.metadata.triggerId
                step)) := by
  constructor
  · intro hOwns
    by_cases hWaits : Waits engine calls approvalOverride
    · exact .inl hWaits
    · right
      have hNew : NewGraph context step calls := by
        by_contra hOld
        exact not_ownsGraph_of_collision hWaits hOld hOwns
      refine ⟨hNew, ?_⟩
      have hExists :
          ∃ steps w' batch,
            Exec host w
              (executePlannedCalls engine context step calls
                approvalOverride) steps w'
              (some (.ok (.executed batch))) :=
        exists_executed hWaits
      rcases hExists with ⟨steps, w', batch, hExec⟩
      rcases (hOwns _ _ _ hExec).executed batch rfl with
        ⟨graph, hOwned⟩
      have hRecorded := hOwned.recorded
      have hStored :=
        ((executePlannedCalls_new hWaits hNew).returns
          hExec).2
      rw [Grown.toolGraphs_eq hStored, World.append_ledger,
        toolGraphs_append] at hRecorded
      have hGraph : newGraph context step calls = graph := by
        simpa [toolGraphs, SessionRecord.asToolExecutionGraph]
          using hRecorded
      have hUnused := hOwned.unused
      rw [← hGraph] at hUnused
      exact hUnused
  · rintro hCondition steps w' r hExec
    by_cases hWaits : Waits engine calls approvalOverride
    · have hSafe :=
        executePlannedCalls_waits (w := w) context step hWaits
      constructor
      · intro s hMem checkpoint hOp
        have hUuid := hSafe.steps hExec s hMem
        rw [hOp] at hUuid
        cases hUuid
      · intro batch hResult
        subst hResult
        rcases hSafe.returns hExec with ⟨_, token, hEq⟩
        cases hEq
    · rcases hCondition with hYes | ⟨hNew, hUnused⟩
      · exact absurd hYes hWaits
      · have hSafe :=
          executePlannedCalls_new (w := w) hWaits hNew
        constructor
        · intro s hMem checkpoint hOp _
          rcases hSafe.steps hExec s hMem with
            hGraph | ⟨hStored, hLoop⟩
          · rw [hOp] at hGraph
            cases hGraph
          · rw [hOp] at hLoop
            exact ⟨_, hStored.ownedGraph hUnused,
              hLoop.checkpoint_graphId⟩
        · intro batch hResult
          subst hResult
          exact ⟨_, (hSafe.returns hExec).2.ownedGraph
            hUnused⟩

end Owned

/- The calls of two runs that make up the same call id. -/
def repeatedCalls (text : String) : List PlannedSkillCall :=
  [Sample.call "gemini-call-0"
    (.object [("text", .string text)])]

/-
  A session after two triggers: the first one has run its
  call and responded, the second has just been told to run a
  call under the same id.
-/
def repeatedSession : World :=
  Script.session Sample.engine
    [(Sample.callsFirst (repeatedCalls "first"),
        .trigger Sample.message),
      (Sample.callsFirst [], .continueWith Sample.resume),
      (Sample.callsFirst (repeatedCalls "second"),
        .trigger Sample.message)]
    (World.empty "session")

/- What the kernel knows when it runs the second call. -/
def repeatedContext : AgentContext :=
  triggerContext Sample.message "8" repeatedSession.snapshot

set_option maxRecDepth 100000 in
/-
  The second call runs on the graph of the first trigger: it
  is dropped, since that graph has been run.
-/
theorem repeatedCalls_not_ownsGraph :
    repeatedCalls "second" ≠ [] ∧
    ((repeatedCalls "second").map (·.callId)).Nodup ∧
    ¬(∀ steps w' r,
      Exec host repeatedSession
        (executePlannedCalls Sample.engine repeatedContext 0
          (repeatedCalls "second") false) steps w' r →
        OwnsGraph (repeatedCalls "second") repeatedSession
          steps w' r) := by
  refine ⟨by decide, by decide, ?_⟩
  apply not_ownsGraph_of_collision
  · rintro ⟨_, hWaiting⟩
    exact hWaiting (by decide)
  · intro hNew
    have hAnswered :
        (toolGraphs repeatedContext.records).any
          (·.answersTo 0 (repeatedCalls "second")) = true := by
      decide +kernel
    rw [List.any_eq_true] at hAnswered
    rcases hAnswered with ⟨graph, hMem, hAnswers⟩
    rw [hNew.unanswered graph hMem] at hAnswers
    cases hAnswers

end RainEngine
