import RainEngine.Batches.Completion
import RainEngine.Batches.Confluence
import RainEngine.Kernel.Engine

/-
  This file proves that stopping a batch and continuing it
  does not change how its calls end. A run of a graph is its
  batch, stopped anywhere, and any number of Continue advances
  that are stopped before they leave the graph again.

  Key definitions include:
    * `Op.ServesBatch`
    * `Serves`
    * `Continuable`
    * `GraphRun`
    * `LoopReturns`

  Key theorems include:
    * `executeGraph_serves`
    * `advanceContinue_serves`
    * `graphRuns_agree`
-/

namespace RainEngine

open Effects

------------------------------------------------------------
-- Requests Of A Batch And Its Continuations
------------------------------------------------------------

/-
  What a batch and a Continue ask for before the kernel goes
  on to its next step.
-/
def Op.ServesBatch : Op → Prop
| .append (.toolExecutionGraph _) => True
| .append (.toolNodeCheckpoint _) => True
| .append (.skillInputValidation _) => True
| .append (.toolCall _) => True
| .append (.toolResult _) => True
| .loadSession => True
| .execute _ _ => True
| .sleep _ => True
| .completions _ => True
| .newUuid => True
| _ => False

/-
  A host on which every call has its result, stopped when the
  graph is left.
-/
def serving (results : CallResults) :
    Machine Op Answer World :=
  host.restrict fun _ op a =>
    op.ServesBatch ∧ AnswersAs results op a

/-
  A request that ends open calls with their verdicts, and
  records results only when nothing is left to be done.
-/
structure Serves
    (D : ToolNodeStatus → String → Prop)
    (graph : ToolExecutionGraph)
    (w : World)
    (op : Op) : Prop where
  fresh : FreshCheckpoint graph.graphId w op
  judged : Judged D graph op
  results :
    ∀ result, op = .append (.toolResult result) →
      Quiescent graph (settledIn graph w)

/- A request that appends neither checkpoints nor results. -/
def Op.Neutral (op : Op) : Prop :=
  ∀ record, op = .append record →
    record.asToolNodeCheckpoint = none ∧
      record.asToolResult = none

theorem neutral_newUuid : Op.newUuid.Neutral := by
  intro record hOp
  cases hOp

section Requests

variable {D : ToolNodeStatus → String → Prop}
variable {engine : AgentEngine}
variable {context : AgentContext}
variable {graph : ToolExecutionGraph}
variable {results : CallResults}
variable {w : World}
variable {op : Op}

theorem Op.Neutral.serves
    (hNeutral : op.Neutral) :
    RainEngine.Serves D graph w op := by
  constructor
  · intro checkpoint hOp
    cases (hNeutral _ hOp).1
  · intro checkpoint hOp
    cases (hNeutral _ hOp).1
  · intro result hOp
    cases (hNeutral _ hOp).2

/- A part that leaves the graph is not gone into. -/
theorem safe_leaves
    {α : Type}
    {Q : α → World → Prop}
    {R : EngineError → World → Prop}
    {k : Answer op → EngineM α}
    (hNeutral : op.Neutral)
    (hLeaves : ¬op.ServesBatch) :
    Safe (serving results) (Serves D graph) Q R
      (.request op k) w :=
  ⟨hNeutral.serves, fun _ hAllowed =>
    absurd hAllowed.2.1 hLeaves⟩

theorem serving_steady :
    ∀ w op a, (serving results).allowed w op a →
      AnswersAs results op a :=
  fun _ _ _ hAllowed => hAllowed.2.2

theorem OnHost.serving : OnHost (serving results) where
  next := rfl
  allowed := fun _ _ _ hAllowed => hAllowed.1

theorem loopRequest_not_result
    (hLoop : LoopRequest engine context graph op) :
    ∀ result, op ≠ .append (.toolResult result) := by
  rintro result rfl
  have hNone := hLoop.isBatchRecord.not_result
  cases hNone

end Requests

------------------------------------------------------------
-- Graphs That Are Executed
------------------------------------------------------------

section Execution

variable {engine : AgentEngine}
variable {context context' : AgentContext}
variable {graph : ToolExecutionGraph}
variable {results : CallResults}
variable {step : Nat}
variable {calls : List PlannedSkillCall}
variable {approvalOverride : Bool}
variable {w : World}

/-
  Executing a graph on statuses that agree with a sound ledger
  ends its calls with their verdicts.
-/
theorem executeGraph_serves
    (hNodup : (graph.nodes.map (·.callId)).Nodup)
    (hSame : SameGates context context')
    (hEntry : ∀ callId,
      settled (latestToolStatuses context' graph.graphId
        callId) = settledIn graph w callId)
    (hVerdict : ∀ callId status,
      settledIn graph w callId = some status →
        Verdict engine context graph results status callId) :
    Safe (serving results)
      (Serves (Verdict engine context graph results) graph)
      (fun _ w' => Quiescent graph (settledIn graph w'))
      (fun _ _ => True)
      (executeGraph engine context' graph step) w := by
  have hRules :
      VerdictRules (serving results)
        (fun _ op => Judged
          (Verdict engine context' graph results) graph op)
        engine context' graph
        (Verdict engine context' graph results) :=
    steady_verdictRules serving_steady
  have hJudged :
      Safe (serving results)
        (fun _ op => Judged
          (Verdict engine context' graph results) graph op)
        (fun _ _ => True) (fun _ _ => True)
        (executeGraph engine context' graph step) w := by
    refine Safe.mono (fun _ _ h => h) (fun _ _ _ => trivial)
      (fun _ _ h => h) (hRules.executeGraph OnHost.serving ?_)
    intro callId status hStatus hTerminal
    have hSettled : settledIn graph w callId = some status := by
      rw [← hEntry, hStatus]
      simp [settled, Option.filter, hTerminal]
    exact (hVerdict callId status hSettled).congr hSame
  refine Safe.mono ?_ (fun _ _ h => h.1.1.quiescent)
    (fun _ _ _ => trivial)
    (((executeGraph_settles hNodup hEntry).restrict.and
      hJudged).and_uses uses_executeGraph)
  rintro w' op ⟨⟨hFresh, hOp⟩, hLoop⟩
  refine ⟨hFresh, ?_, ?_⟩
  · intro checkpoint hAppend hGraph hTerminal
    exact (hOp checkpoint hAppend hGraph hTerminal).congr
      hSame.symm
  · intro result hAppend
    exact absurd hAppend (loopRequest_not_result hLoop result)

/- A fresh batch ends its calls with their verdicts. -/
theorem freshBatch_serves
    (hFresh : FreshBatch context step calls w)
    (hNodup : (calls.map (·.callId)).Nodup) :
    Safe (serving results)
      (Serves
        (Verdict engine context
          (newGraph context step calls) results)
        (newGraph context step calls))
      (fun _ _ => True) (fun _ _ => True)
      (executePlannedCalls engine context step calls
        approvalOverride) w := by
  by_cases hWaits : Waits engine calls approvalOverride
  · refine Safe.mono ?_ (fun _ _ _ => trivial)
      (fun _ _ _ => trivial)
      (executePlannedCalls_waits context step
        hWaits).restrict
    rintro w' op rfl
    exact neutral_newUuid.serves
  · have hRules :
        VerdictRules (serving results)
          (fun _ op => Judged
            (Verdict engine context
              (newGraph context step calls) results)
            (newGraph context step calls) op)
          engine context (newGraph context step calls)
          (Verdict engine context
            (newGraph context step calls) results) :=
      steady_verdictRules serving_steady
    have hJudged := hRules.executePlannedCalls OnHost.serving
      hWaits hFresh
    refine Safe.mono ?_ (fun _ _ _ => trivial)
      (fun _ _ _ => trivial)
      (((executePlannedCalls_settles hWaits hFresh
        hNodup).restrict.and hJudged).and_uses
          (uses_executePlannedCalls hWaits))
    rintro w' op ⟨⟨hCheckpoint, hOp⟩, hPlanned⟩
    refine ⟨hCheckpoint, hOp, ?_⟩
    rintro result rfl
    rcases hPlanned with hGraph | hLoop
    · cases hGraph
    · exact absurd rfl (loopRequest_not_result hLoop result)

/- Nothing is done for a graph with nothing left to do. -/
theorem skipBlockedNodes_quiescent
    {nodes : List ToolNode}
    {state : BatchState}
    {changed : Bool}
    (hQuiet : ∀ node ∈ nodes,
      isTerminalStatus (state.status node.callId) = true ∨
        blockingDependency state.status node = none) :
    skipBlockedNodes graph nodes state changed =
      pure (state, changed) := by
  induction nodes with
  | nil => rfl
  | cons node rest ih =>
      have hRest := ih fun n hMem =>
        hQuiet n (List.mem_cons_of_mem _ hMem)
      unfold skipBlockedNodes
      split
      · exact hRest
      · rename_i hOpen
        rcases hQuiet node List.mem_cons_self with
          hTerminal | hNone
        · exact absurd hTerminal hOpen
        · rw [hNone]
          exact hRest

theorem executeGraph_quiescent
    (hQuiet : Quiescent graph
      (latestToolStatuses context graph.graphId)) :
    executeGraph engine context graph step =
      pure { results := [], allFailed := true } := by
  have hReady :
      nextWave context.metadata.policy graph
        (latestToolStatuses context graph.graphId) = [] := by
    have hNone :
        readyNodes graph
          (latestToolStatuses context graph.graphId) =
            [] := by
      rw [List.eq_nil_iff_forall_not_mem]
      intro node hMem
      unfold readyNodes at hMem
      rw [List.mem_insertionSort, List.mem_filter] at hMem
      rcases hQuiet node hMem.1 with hTerminal | hNot
      · have hIsReady := hMem.2
        unfold ToolNode.isReady at hIsReady
        rw [hTerminal] at hIsReady
        cases hIsReady
      · rw [hNot.2] at hMem
        cases hMem.2
    unfold nextWave
    rw [hNone, List.take_nil]
  have hOrdered : orderedResults graph [] = [] := by
    unfold orderedResults
    rw [List.filterMap_eq_nil_iff]
    exact fun _ _ => rfl
  have hSkip : ∀ node ∈ graph.nodes,
      isTerminalStatus
          (latestToolStatuses context graph.graphId
            node.callId) = true ∨
        blockingDependency
          (latestToolStatuses context graph.graphId) node =
            none :=
    fun node hNode => (hQuiet node hNode).imp_right And.left
  unfold executeGraph runGraph
  rw [skipBlockedNodes_quiescent hSkip]
  simp only [Program.pure_bind, hReady, List.isEmpty_nil,
    if_true, Bool.false_eq_true, if_false, hOrdered]
  rfl

end Execution

------------------------------------------------------------
-- Worlds A Graph Is Resumed In
------------------------------------------------------------

/-
  The terminal checkpoints are verdicts, and the gates are as
  they were at first unless nothing is left to be done.
-/
structure Resumable
    (engine : AgentEngine)
    (context : AgentContext)
    (graph : ToolExecutionGraph)
    (results : CallResults)
    (w : World) : Prop where
  sound :
    Sound (Verdict engine context graph results) graph w
  gates :
    toolResults w.ledger = toolResults context.records ∨
      Quiescent graph (settledIn graph w)

section Invariant

variable {engine : AgentEngine}
variable {context : AgentContext}
variable {graph : ToolExecutionGraph}
variable {results : CallResults}
variable {step : Nat}
variable {calls : List PlannedSkillCall}
variable {w : World}
variable {op : Op}
variable {a : Answer op}

/- A settled call stays settled. -/
theorem settledIn_next
    {callId : String}
    (hSettled : settledIn graph w callId ≠ none) :
    settledIn graph (hostNext w op a) callId ≠ none := by
  unfold settledIn at hSettled ⊢
  rcases hostNext_ledger w op a with hSame | hAppend
  · rw [hSame]
    exact hSettled
  · rcases hAppend with ⟨record, _, hLedger⟩
    rw [hLedger, settledStatus_append]
    intro hNone
    rw [Option.or_eq_none_iff] at hNone
    exact hSettled hNone.2

theorem toolResults_next
    (hOther : ∀ result, op ≠ .append (.toolResult result)) :
    toolResults (hostNext w op a).ledger =
      toolResults w.ledger := by
  rcases hostNext_ledger w op a with hSame | hAppend
  · rw [hSame]
  · rcases hAppend with ⟨record, hOp, hLedger⟩
    rw [hLedger, toolResults_append]
    cases record with
    | toolResult result => exact absurd hOp (hOther result)
    | _ => exact List.append_nil _

/- What serves a batch keeps its graph resumable. -/
theorem Resumable.next
    (hNodup : (graph.nodes.map (·.callId)).Nodup)
    (hResumable :
      Resumable engine context graph results w)
    (hServes : Serves (Verdict engine context graph results)
      graph w op) :
    Resumable engine context graph results
      (hostNext w op a) := by
  have hSound :
      Sound (Verdict engine context graph results) graph
        (hostNext w op a) :=
    hResumable.sound.next hServes.fresh hServes.judged
  refine ⟨hSound, ?_⟩
  by_cases hQuiet : Quiescent graph (settledIn graph w)
  · -- a verdict still to be recorded would be settled already
    have hSame :
        settledIn graph (hostNext w op a) =
          settledIn graph w := by
      funext callId
      cases hStatus :
          settledIn graph (hostNext w op a) callId with
      | none =>
          by_contra hOld
          exact settledIn_next (fun h => hOld h.symm) hStatus
      | some status =>
          exact (hResumable.sound.settled_of_verdict hNodup
            hQuiet (hSound.verdict _ _ hStatus)).symm
    rw [hSame]
    exact .inr hQuiet
  · left
    rw [toolResults_next
      fun result hOp => hQuiet (hServes.results result hOp)]
    exact hResumable.gates.resolve_right hQuiet

/- Before a fresh batch nothing is settled. -/
theorem freshBatch_resumable
    (hFresh : FreshBatch context step calls w)
    (hSees :
      toolResults context.records = toolResults w.ledger) :
    Resumable engine context (newGraph context step calls)
      results w := by
  refine ⟨⟨hFresh.latched, ?_⟩, .inl hSees.symm⟩
  intro callId status hStatus
  unfold settledIn at hStatus
  rw [hFresh.settledStatus_eq] at hStatus
  cases hStatus

end Invariant

------------------------------------------------------------
-- Continuing A Graph
------------------------------------------------------------

/-
  The ledger has the graph as its active one, and a Continue
  works with the scopes and the policy of the batch, apart
  from the limits on parallel calls.
-/
structure Continuable
    (context : AgentContext)
    (graph : ToolExecutionGraph)
    (request : ContinueRequest)
    (w : World) : Prop where
  active : activeToolExecutionGraph w.ledger = some graph
  scopes : request.grantedScopes = context.grantedScopes
  policy :
    ∃ parallel ready,
      request.policy.withOverlay
          (activePolicyOverlay w.ledger) =
        { context.metadata.policy with
          maxParallelSkillCalls := parallel
          maxReadyToolNodes := ready }

section Continuing

variable {D : ToolNodeStatus → String → Prop}
variable {engine : AgentEngine}
variable {context : AgentContext}
variable {graph : ToolExecutionGraph}
variable {results : CallResults}
variable {request : ContinueRequest}
variable {w : World}

/- A Continue executes the active graph as it is stored. -/
theorem executePlannedCalls_active
    (hActive :
      activeToolExecutionGraph context.records = some graph) :
    executePlannedCalls engine context graph.step
        (graph.nodes.map ToolNode.toCall) true =
      executeGraph engine context graph graph.step >>=
        fun batch => pure (.executed batch) := by
  have hRuns : ¬Waits engine
      (graph.nodes.map ToolNode.toCall) true :=
    fun hWaits => nomatch hWaits.1
  have hStored : graph ∈ toolGraphs context.records := by
    have hNewest := findSomeRev?_of_active hActive
    rw [List.findSomeRev?_eq_findSome?_reverse] at hNewest
    rcases List.exists_of_findSome?_eq_some hNewest with
      ⟨record, hMem, hRecord⟩
    exact List.mem_filterMap.mpr
      ⟨record, List.mem_reverse.mp hMem, hRecord⟩
  rw [executePlannedCalls_eq hRuns,
    existingOrNewGraph_active hActive, storeGraph_eq,
    if_pos ⟨graph, hStored, rfl⟩, Program.pure_bind]

/- The results of a finished graph are recorded at its end. -/
theorem recordResultsOrFail_serves
    {records : List ToolResultRecord}
    (hQuiet : Quiescent graph (settledIn graph w)) :
    Safe (serving results) (Serves D graph)
      (fun _ _ => True) (fun _ _ => True)
      (recordResultsOrFail records context) w := by
  have hRecords :
      Safe (serving results) (Serves D graph)
        (fun _ _ => True) (fun _ _ => True)
        (recordResults records context) w := by
    induction records generalizing context w with
    | nil => trivial
    | cons result rest ih =>
        refine ⟨⟨nofun, nofun, fun _ _ => hQuiet⟩, ?_⟩
        intro a _
        cases a with
        | error error => trivial
        | ok _ =>
            apply ih
            change Quiescent graph
              (settledStatus graph.graphId
                (w.ledger ++ [.toolResult result]))
            rw [settledStatus_append_other rfl]
            exact hQuiet
  unfold recordResultsOrFail
  refine Safe.bind hRecords ?_
  intro recorded w' _
  cases recorded with
  | ok context' => trivial
  | error error => trivial

/- The next step is not part of the run of a graph. -/
theorem performSingleStep_leaves
    {trigger : AgentTrigger}
    {steps failures : Nat}
    {events : List KernelEventRecord} :
    Safe (serving results) (Serves D graph)
      (fun _ _ => True) (fun _ _ => True)
      (performSingleStep engine context trigger steps
        failures events) w := by
  unfold performSingleStep
  split
  · refine safe_leaves ?_ id
    rintro record ⟨⟩
    exact ⟨rfl, rfl⟩
  · refine safe_leaves ?_ id
    rintro record ⟨⟩

/- The loop of a Continue leaves nothing to be done. -/
theorem resumedGraph_serves
    (trigger : TriggerRecord)
    (hNodup : (graph.nodes.map (·.callId)).Nodup)
    (hResumable :
      Resumable engine context graph results w)
    (hContinues : Continuable context graph request w) :
    Safe (serving results)
      (Serves (Verdict engine context graph results) graph)
      (fun _ w' => Quiescent graph (settledIn graph w'))
      (fun _ _ => True)
      (executeGraph engine
        (continueContext request trigger w.snapshot)
        graph graph.step) w := by
  have hEntry : ∀ callId,
      settled (latestToolStatuses
        (continueContext request trigger w.snapshot)
        graph.graphId callId) =
          settledIn graph w callId := by
    intro callId
    rw [latestToolStatuses_eq]
    exact hResumable.sound.latched callId
  rcases hResumable.gates with hSame | hQuiet
  · exact executeGraph_serves hNodup
      ⟨hContinues.scopes, hContinues.policy, hSame⟩
      hEntry hResumable.sound.verdict
  · have hDone := hQuiet.congr fun callId => by
      rw [hEntry, settled_settledIn]
    rw [executeGraph_quiescent hDone]
    exact hQuiet

/- A Continue of a resumable graph serves it. -/
theorem advanceContinue_serves
    (hNodup : (graph.nodes.map (·.callId)).Nodup)
    (hResumable :
      Resumable engine context graph results w)
    (hContinues : Continuable context graph request w) :
    Safe (serving results)
      (Serves (Verdict engine context graph results) graph)
      (fun _ _ => True) (fun _ _ => True)
      (advance engine (.continueWith request)) w := by
  have hLoad : Op.loadSession.Neutral := by
    intro record hOp
    cases hOp
  refine ⟨hLoad.serves, ?_⟩
  intro answer hAllowed
  cases answer with
  | error error => trivial
  | ok snapshot =>
      have hSnapshot : snapshot = w.snapshot := hAllowed.1
      subst hSnapshot
      have hNext :
          (serving results).next w .loadSession
            (.ok w.snapshot) = w := rfl
      rw [hNext]
      dsimp only [Program.bind]
      rw [World.snapshot_records]
      split
      · exact ⟨neutral_newUuid.serves, fun _ _ => trivial⟩
      · rename_i trigger _
        unfold continueTrigger
        dsimp only
        rw [World.snapshot_records, hContinues.active]
        dsimp only
        unfold resumeGraph
        have hActive :
            activeToolExecutionGraph
              (continueContext request trigger
                w.snapshot).records = some graph :=
          hContinues.active
        rw [executePlannedCalls_active hActive,
          Program.bind_assoc]
        have hGraph :=
          resumedGraph_serves trigger hNodup hResumable
            hContinues
        refine Safe.bind hGraph ?_
        intro batch w' hQuiet
        rw [Program.pure_bind]
        refine Safe.bind
          (recordResultsOrFail_serves hQuiet) ?_
        intro recorded w'' _
        exact performSingleStep_leaves

end Continuing

------------------------------------------------------------
-- Runs Of A Graph
------------------------------------------------------------

/-
  A fresh batch and the Continue advances after it, each
  stopped anywhere before it leaves the graph.
-/
inductive GraphRun
    (engine : AgentEngine)
    (context : AgentContext)
    (graph : ToolExecutionGraph)
    (results : CallResults) :
    World → List (Step Op Answer World) → World → Prop where
  | batch
      {w w' : World}
      {steps : List (Step Op Answer World)}
      {r : Option (Except EngineError BatchExecution)}
      {step : Nat}
      {calls : List PlannedSkillCall}
      {approvalOverride : Bool}
      (hGraph : newGraph context step calls = graph)
      (hFresh : FreshBatch context step calls w)
      (hSees :
        toolResults context.records = toolResults w.ledger)
      (hExec : Exec (serving results) w
        (executePlannedCalls engine context step calls
          approvalOverride) steps w' r) :
      GraphRun engine context graph results w steps w'
  | continued
      {w w' w'' : World}
      {steps more : List (Step Op Answer World)}
      {r : Option (Except EngineError AdvanceResult)}
      {request : ContinueRequest}
      (hRun :
        GraphRun engine context graph results w steps w')
      (hContinues : Continuable context graph request w')
      (hExec : Exec (serving results) w'
        (advance engine (.continueWith request)) more w''
        r) :
      GraphRun engine context graph results w (steps ++ more)
        w''

/-
  The loop of a graph has returned at the end of the steps:
  that of its batch, or that of a Continue.
-/
inductive LoopReturns
    (engine : AgentEngine)
    (context : AgentContext)
    (graph : ToolExecutionGraph)
    (results : CallResults) :
    World → List (Step Op Answer World) → World → Prop where
  | batch
      {w w' : World}
      {steps : List (Step Op Answer World)}
      {batch : ExecutedBatch}
      {step : Nat}
      {calls : List PlannedSkillCall}
      {approvalOverride : Bool}
      (hGraph : newGraph context step calls = graph)
      (hFresh : FreshBatch context step calls w)
      (hExec : Exec (serving results) w
        (executePlannedCalls engine context step calls
          approvalOverride) steps w'
        (some (.ok (.executed batch)))) :
      LoopReturns engine context graph results w steps w'
  | continued
      {w w' w'' : World}
      {steps more : List (Step Op Answer World)}
      {batch : ExecutedBatch}
      {request : ContinueRequest}
      {trigger : TriggerRecord}
      (hRun :
        GraphRun engine context graph results w steps w')
      (hContinues : Continuable context graph request w')
      (hExec : Exec (serving results) w'
        (executeGraph engine
          (continueContext request trigger w'.snapshot)
          graph graph.step) more w'' (some (.ok batch))) :
      LoopReturns engine context graph results w
        (steps ++ more) w''

/- No call with a terminal checkpoint is started again. -/
def NeverRestarts
    (graph : ToolExecutionGraph)
    (steps : List (Step Op Answer World)) :
    Prop :=
  ∀ s ∈ steps, ∀ checkpoint,
    s.op = .append (.toolNodeCheckpoint checkpoint) →
      checkpoint.graphId = graph.graphId →
        checkpoint.status = .started →
          ∀ earlier,
            .toolNodeCheckpoint earlier ∈ s.before.ledger →
              earlier.graphId = graph.graphId →
                earlier.callId = checkpoint.callId →
                  earlier.status.isTerminal = false

section Runs

variable {engine : AgentEngine}
variable {context : AgentContext}
variable {graph : ToolExecutionGraph}
variable {results : CallResults}
variable {w w' : World}
variable {steps : List (Step Op Answer World)}

/- What serves a graph is carried along an execution. -/
theorem Resumable.exec
    {α : Type}
    {p : EngineM α}
    {r : Option (Except EngineError α)}
    (hNodup : (graph.nodes.map (·.callId)).Nodup)
    (hResumable :
      Resumable engine context graph results w)
    (hSafe : Safe (serving results)
      (Serves (Verdict engine context graph results) graph)
      (fun _ _ => True) (fun _ _ => True) p w)
    (hExec : Exec (serving results) w p steps w' r) :
    (∀ s ∈ steps,
      Serves (Verdict engine context graph results) graph
        s.before s.op) ∧
      Resumable engine context graph results w' :=
  ⟨hSafe.steps hExec,
    (hSafe.invariant hExec (fun _ _ _ hBefore hServes _ =>
      hBefore.next hNodup hServes) hResumable).2⟩

/- Every step of a run serves the graph. -/
theorem GraphRun.serves
    (hNodup : (graph.nodes.map (·.callId)).Nodup)
    (hRun : GraphRun engine context graph results w steps w') :
    (∀ s ∈ steps,
      Serves (Verdict engine context graph results) graph
        s.before s.op) ∧
      Resumable engine context graph results w' := by
  induction hRun with
  | @batch w' steps r step calls approvalOverride hGraph
      hFresh hSees hExec =>
      subst hGraph
      have hCalls : (calls.map (·.callId)).Nodup := by
        rw [newGraph_callIds] at hNodup
        exact hNodup
      exact (freshBatch_resumable hFresh hSees).exec hNodup
        (freshBatch_serves hFresh hCalls) hExec
  | continued hRun hContinues hExec ih =>
      have hMore := ih.2.exec hNodup
        (advanceContinue_serves hNodup ih.2 hContinues) hExec
      refine ⟨?_, hMore.2⟩
      intro s hMem
      rcases List.mem_append.mp hMem with hOld | hNew
      · exact ih.1 s hOld
      · exact hMore.1 s hNew

theorem GraphRun.neverRestarts
    (hNodup : (graph.nodes.map (·.callId)).Nodup)
    (hRun : GraphRun engine context graph results w steps w') :
    NeverRestarts graph steps := by
  intro s hMem checkpoint hOp hGraph _ earlier hEarlier
    hSameGraph hSameCall
  have hOpen := ((hRun.serves hNodup).1 s hMem).fresh
    checkpoint hOp hGraph
  by_contra hTerminal
  rw [Bool.not_eq_false] at hTerminal
  exact settledStatus_ne_none_iff.mpr
    ⟨earlier, hEarlier, hSameGraph, hSameCall, hTerminal⟩
    hOpen

/- Nothing is left to be done when the loop returns. -/
theorem LoopReturns.quiescent
    (hNodup : (graph.nodes.map (·.callId)).Nodup)
    (hReturns :
      LoopReturns engine context graph results w steps w') :
    Quiescent graph (settledIn graph w') := by
  cases hReturns with
  | @batch _ steps executed step calls approvalOverride
      hGraph hFresh hExec =>
      subst hGraph
      rw [newGraph_callIds] at hNodup
      by_cases hWaits : Waits engine calls approvalOverride
      · rcases ((executePlannedCalls_waits context step
          hWaits).restrict.returns hExec).2 with
          ⟨token, hSuspended⟩
        cases hSuspended
      · rcases (executePlannedCalls_settles hWaits hFresh
          hNodup).restrict.returns hExec with
          ⟨_, _, hReport⟩
        exact hReport.quiescent
  | continued hRun hContinues hExec =>
      exact (resumedGraph_serves _ hNodup
        (hRun.serves hNodup).2 hContinues).returns hExec

end Runs

/-
  Two runs of a graph in which nothing is left to be done have
  settled the same calls in the same way, no run starts a
  settled call again, and nothing is left to be done when the
  loop of the graph returns.
-/
theorem graphRuns_agree
    (engine : AgentEngine)
    (context context' : AgentContext)
    (graph : ToolExecutionGraph)
    (results : CallResults)
    (w v w' v' : World)
    (steps steps' : List (Step Op Answer World))
    (hNodup : (graph.nodes.map (·.callId)).Nodup)
    (hSame : SameGates context context')
    (hRun : GraphRun engine context graph results w steps v)
    (hRun' :
      GraphRun engine context' graph results w' steps' v') :
    (Quiescent graph (settledIn graph v) →
      Quiescent graph (settledIn graph v') →
        settledIn graph v = settledIn graph v') ∧
      NeverRestarts graph steps ∧
      NeverRestarts graph steps' ∧
      (∀ more u,
        LoopReturns engine context graph results w more u →
          Quiescent graph (settledIn graph u)) ∧
      (∀ more u,
        LoopReturns engine context' graph results w' more
            u →
          Quiescent graph (settledIn graph u)) := by
  refine ⟨?_, hRun.neverRestarts hNodup,
    hRun'.neverRestarts hNodup,
    fun _ _ hReturns => hReturns.quiescent hNodup,
    fun _ _ hReturns => hReturns.quiescent hNodup⟩
  intro hQuiet hQuiet'
  have hSound := (hRun.serves hNodup).2.sound
  have hSound' := (hRun'.serves hNodup).2.sound
  funext callId
  apply Option.ext
  intro status
  rw [hSound.settled_iff hNodup hQuiet,
    hSound'.settled_iff hNodup hQuiet']
  exact ⟨Verdict.congr hSame, Verdict.congr hSame.symm⟩

------------------------------------------------------------
-- An Interrupted Batch
------------------------------------------------------------

namespace Sample

instance (op : Op) : Decidable op.ServesBatch := by
  unfold Op.ServesBatch
  split <;> infer_instance

/- A host that stays with the batch it executes. -/
def staysWith
    (script : Script)
    (w : World)
    (op : Op) :
    Option (Answer op) :=
  if op.ServesBatch then script.answer w op else none

theorem staysWith_allowed
    {stops : Op → Bool}
    (w : World)
    (op : Op)
    (a : Answer op)
    (hAnswer : staysWith
      { callsFirst [] with stopsAt := stops } w op = some a) :
    (serving fun _ _ _ _ => .ok .null).allowed w op a := by
  unfold staysWith at hAnswer
  split at hAnswer
  · rename_i hServes
    refine ⟨(Script.answer_allowed hAnswer).1, hServes, ?_⟩
    unfold Script.answer at hAnswer
    split at hAnswer
    · cases hAnswer
    · cases op with
      | execute backend invocation =>
          cases hAnswer
          rfl
      | _ => trivial
  · cases hAnswer

/- Every call succeeds. -/
def allSucceed : CallResults :=
  fun _ _ _ _ => .ok .null

def pairCalls : List PlannedSkillCall :=
  [call "a" .null, call "b" .null]

/- A session whose message has been recorded. -/
def messagedWorld : World :=
  (World.empty "session").append
    (.trigger
      { triggerId := "0"
        sessionId := "session"
        idempotencyKey := none
        trigger := message.trigger
        intent := none })

/- A batch of two calls, stopped where it is said. -/
def pairBatch
    (stops : Op → Bool) :
    List (Step Op Answer World) × World ×
      Option (Except EngineError BatchExecution) :=
  (executePlannedCalls engine firstContext 0 pairCalls
    false).run (serving allSucceed)
      (staysWith { callsFirst [] with stopsAt := stops })
      messagedWorld

/- It is stopped while both calls run. -/
def whileRunning : Op → Bool
| .completions _ => true
| _ => false

/- A Continue that runs one call at a time. -/
def serialResume : ContinueRequest :=
  { resume with
    policy := { resume.policy with maxParallelSkillCalls := 1 } }

def resumedPair :
    List (Step Op Answer World) × World ×
      Option (Except EngineError AdvanceResult) :=
  (advance engine (.continueWith serialResume)).run
    (serving allSucceed) (staysWith (callsFirst []))
    (pairBatch whileRunning).2.1

theorem pairBatch_run
    (stops : Op → Bool) :
    GraphRun engine firstContext
      (newGraph firstContext 0 pairCalls) allSucceed
      messagedWorld (pairBatch stops).1
      (pairBatch stops).2.1 := by
  refine .batch rfl ⟨⟨?_, ?_⟩, ?_⟩ rfl
    (Program.run_exec staysWith_allowed _ _)
  · nofun
  · nofun
  · intro checkpoint hMem
    cases List.mem_singleton.mp hMem

set_option maxRecDepth 100000 in
theorem resumedPair_run :
    GraphRun engine firstContext
      (newGraph firstContext 0 pairCalls) allSucceed
      messagedWorld
      ((pairBatch whileRunning).1 ++ resumedPair.1)
      resumedPair.2.1 := by
  have hContinues : Continuable firstContext
      (newGraph firstContext 0 pairCalls) serialResume
      (pairBatch whileRunning).2.1 :=
    ⟨rfl, rfl, ⟨1, 64, rfl⟩⟩
  exact .continued (pairBatch_run whileRunning) hContinues
    (Program.run_exec staysWith_allowed _ _)

theorem sameGates_self
    (context : AgentContext) :
    SameGates context context :=
  ⟨rfl, ⟨_, _, rfl⟩, rfl⟩

end Sample

set_option maxRecDepth 100000 in
/- The interrupted batch ends as the one that was not. -/
theorem graphRuns_agree_interrupted :
    settledIn (newGraph firstContext 0 Sample.pairCalls)
        (Sample.pairBatch fun _ => false).2.1 "b" =
      some .succeeded ∧
      settledIn (newGraph firstContext 0 Sample.pairCalls)
          (Sample.pairBatch fun _ => false).2.1 =
        settledIn (newGraph firstContext 0 Sample.pairCalls)
          Sample.resumedPair.2.1 := by
  refine ⟨by decide +kernel, ?_⟩
  refine (graphRuns_agree Sample.engine firstContext
    firstContext (newGraph firstContext 0 Sample.pairCalls)
    Sample.allSucceed Sample.messagedWorld _
    Sample.messagedWorld _ _ _ (by decide)
    (Sample.sameGates_self _)
    (Sample.pairBatch_run fun _ => false)
    Sample.resumedPair_run).1 ?_ ?_
  · intro node hNode
    left
    revert node
    decide +kernel
  · intro node hNode
    left
    revert node
    decide +kernel

end RainEngine
