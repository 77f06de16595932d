import RainEngine.Batches.Requests

/-
  This file proves that the scheduling loop of a graph ends:
  every round settles at least one more node, so the fuel of
  the loop never runs out, whatever the graph looks like.

  Key definitions include:
    * `BatchState.Settled`
    * `BatchState.LeadsTo`
    * `unsettledCount`
    * `Quiescent`

  Key theorems include:
    * `uses_skipBlockedNodes`
    * `uses_prepareWave`
    * `uses_joinTasks`
    * `runGraph_ends`
    * `executeGraph_ends`
-/

namespace RainEngine

open Effects

------------------------------------------------------------
-- Settled Calls
------------------------------------------------------------

namespace BatchState

/- The loop knows a terminal status of the call. -/
def Settled (state : BatchState) (callId : String) : Prop :=
  isTerminalStatus (state.status callId) = true

/- No call that is settled before is unsettled after. -/
def LeadsTo (before after : BatchState) : Prop :=
  ∀ callId, before.Settled callId → after.Settled callId

theorem LeadsTo.refl (state : BatchState) :
    state.LeadsTo state :=
  fun _ h => h

theorem LeadsTo.trans
    {first second third : BatchState}
    (hFirst : first.LeadsTo second)
    (hSecond : second.LeadsTo third) :
    first.LeadsTo third :=
  fun callId h => hSecond callId (hFirst callId h)

theorem record_settled
    {state : BatchState}
    {callId : String}
    {status : ToolNodeStatus}
    {result : ToolResultRecord}
    (hTerminal : status.isTerminal = true) :
    (state.record callId status result).Settled callId := by
  simp [Settled, record, isTerminalStatus, hTerminal]

theorem leadsTo_record
    {state : BatchState}
    {callId : String}
    {status : ToolNodeStatus}
    {result : ToolResultRecord}
    (hTerminal : status.isTerminal = true) :
    state.LeadsTo (state.record callId status result) := by
  intro other hSettled
  by_cases hEq : other = callId
  · subst hEq
    exact record_settled hTerminal
  · unfold Settled at hSettled ⊢
    simpa [record, hEq] using hSettled

end BatchState

theorem finalStatusForResult_isTerminal
    (result : ToolResultRecord) :
    (finalStatusForResult result).isTerminal = true := by
  unfold finalStatusForResult
  split
  · rfl
  · split <;> rfl

------------------------------------------------------------
-- What A Round Settles
------------------------------------------------------------

section Rounds

variable {engine : AgentEngine}
variable {context : AgentContext}
variable {graph : ToolExecutionGraph}
variable {state : BatchState}
variable {nodes : List ToolNode}

/-
  A pass over the nodes skips at least one of them, or finds
  none that a failed dependency blocks.
-/
structure SkipPass
    (nodes : List ToolNode)
    (state : BatchState)
    (changed : Bool)
    (next : BatchState × Bool) : Prop where
  leads : state.LeadsTo next.1
  marked : changed = true → next.2 = true
  settles :
    next.2 = true → changed = true ∨
      ∃ node ∈ nodes, ¬state.Settled node.callId ∧
        next.1.Settled node.callId
  idle :
    next.2 = false → next.1 = state ∧
      ∀ node ∈ nodes, state.Settled node.callId ∨
        blockingDependency state.status node = none

/- A node that is passed over leaves the pass to the rest. -/
theorem SkipPass.cons
    {node : ToolNode}
    {rest : List ToolNode}
    {changed : Bool}
    {next : BatchState × Bool}
    (hPass : SkipPass rest state changed next)
    (hNode : state.Settled node.callId ∨
      blockingDependency state.status node = none) :
    SkipPass (node :: rest) state changed next := by
  refine ⟨hPass.leads, hPass.marked, ?_, ?_⟩
  · intro hNext
    rcases hPass.settles hNext with hChanged | hOther
    · exact .inl hChanged
    · rcases hOther with ⟨other, hMem, hSettles⟩
      exact .inr ⟨other, by simp [hMem], hSettles⟩
  · intro hNext
    rcases hPass.idle hNext with ⟨hEq, hAll⟩
    refine ⟨hEq, ?_⟩
    intro other hMem
    rcases List.mem_cons.mp hMem with hHead | hTail
    · subst hHead
      exact hNode
    · exact hAll other hTail

/- A node that is skipped is settled by the pass. -/
theorem SkipPass.skip
    {node : ToolNode}
    {rest : List ToolNode}
    {changed : Bool}
    {result : ToolResultRecord}
    {next : BatchState × Bool}
    (hUnsettled : ¬state.Settled node.callId)
    (hPass : SkipPass rest
      (state.record node.callId .skipped result) true next) :
    SkipPass (node :: rest) state changed next := by
  have hMarked : next.2 = true := hPass.marked rfl
  refine ⟨?_, fun _ => hMarked, ?_, ?_⟩
  · exact (BatchState.leadsTo_record rfl).trans hPass.leads
  · intro _
    refine .inr ⟨node, by simp, hUnsettled, ?_⟩
    exact hPass.leads _ (BatchState.record_settled rfl)
  · intro hNext
    rw [hMarked] at hNext
    cases hNext

theorem uses_skipBlockedNodes
    {changed : Bool}
    (hNodes : ∀ node ∈ nodes, node ∈ graph.nodes) :
    Uses (BatchRequest engine context graph)
      (SkipPass nodes state changed)
      (skipBlockedNodes graph nodes state changed) := by
  induction nodes generalizing state changed with
  | nil =>
      exact ⟨.refl state, fun h => h, fun h => .inl h,
        fun _ => ⟨rfl, by simp⟩⟩
  | cons node rest ih =>
      have hRest : ∀ n ∈ rest, n ∈ graph.nodes :=
        fun n hMem => hNodes n (by simp [hMem])
      unfold skipBlockedNodes
      split
      · rename_i hSettled
        exact Uses.mono (fun _ h => h)
          (fun _ hPass => hPass.cons (.inl hSettled))
          (ih hRest)
      · rename_i hUnsettled
        split
        · rename_i hFree
          exact Uses.mono (fun _ h => h)
            (fun _ hPass => hPass.cons (.inr hFree))
            (ih hRest)
        · rename_i blockedBy hBlocked
          rw [Uses.bind_iff]
          apply uses_appendToolCheckpoint
            (hNodes node (by simp))
          exact Uses.mono (fun _ h => h)
            (fun _ hPass => hPass.skip hUnsettled)
            (ih hRest)

/-
  A wave settles each of its nodes or has a task that
  reports on it.
-/
structure WavePass
    (engine : AgentEngine)
    (context : AgentContext)
    (nodes : List ToolNode)
    (state : BatchState)
    (tasks : List ToolTask)
    (next : BatchState × List ToolTask) : Prop where
  leads : state.LeadsTo next.1
  tasks_kept : ∀ task ∈ tasks, task ∈ next.2
  covers :
    ∀ node ∈ nodes, next.1.Settled node.callId ∨
      ∃ task ∈ next.2, TaskFor engine context node task

theorem uses_prepareWave
    {step : Nat}
    {tasks : List ToolTask}
    (hNodes : ∀ node ∈ nodes, node ∈ graph.nodes) :
    Uses (BatchRequest engine context graph)
      (WavePass engine context nodes state tasks)
      (prepareWave engine context graph step nodes state
        tasks) := by
  induction nodes generalizing state tasks with
  | nil =>
      exact ⟨.refl state, fun _ h => h, by simp⟩
  | cons node rest ih =>
      have hNode := hNodes node (by simp)
      have hRest : ∀ n ∈ rest, n ∈ graph.nodes :=
        fun n hMem => hNodes n (by simp [hMem])
      unfold prepareWave
      refine Uses.bind (uses_prepareNode hNode) ?_
      rintro ⟨prepared, attempts⟩ hFor
      cases hFor with
      | executable hPrepared =>
          refine Uses.bind (uses_runPreparedCall hPrepared
            (.execute hNode hPrepared) .sleep) ?_
          intro task hTask
          refine Uses.mono (fun _ h => h) ?_ (ih hRest)
          intro next hPass
          refine ⟨hPass.leads, ?_, ?_⟩
          · intro old hOld
            exact hPass.tasks_kept old (by simp [hOld])
          · intro other hMem
            rcases List.mem_cons.mp hMem with hHead | hTail
            · subst hHead
              exact .inr ⟨task,
                hPass.tasks_kept task (by simp), hTask⟩
            · exact hPass.covers other hTail
      | @immediate kind message hKind _ =>
          refine Uses.mono (fun _ h => h) ?_ (ih hRest)
          intro next hPass
          have hTerminal := finalStatusForResult_isTerminal
            (errorResult node.callId node.skillName kind
              message)
          have hAttempts :
              state.LeadsTo { state with attempts := attempts } :=
            .refl state
          refine ⟨?_, hPass.tasks_kept, ?_⟩
          · exact (hAttempts.trans
              (BatchState.leadsTo_record hTerminal)).trans
                hPass.leads
          · intro other hMem
            rcases List.mem_cons.mp hMem with hHead | hTail
            · subst hHead
              exact .inl (hPass.leads _
                (BatchState.record_settled hTerminal))
            · exact hPass.covers other hTail

/- Joining the tasks of a wave settles what they report on. -/
structure JoinPass
    (engine : AgentEngine)
    (context : AgentContext)
    (graph : ToolExecutionGraph)
    (tasks : List ToolTask)
    (state next : BatchState) : Prop where
  leads : state.LeadsTo next
  settles :
    ∀ node ∈ graph.nodes, ∀ task ∈ tasks,
      TaskFor engine context node task →
        next.Settled node.callId

theorem uses_joinTasks
    {tasks : List ToolTask} :
    Uses (BatchRequest engine context graph)
      (JoinPass engine context graph tasks state)
      (joinTasks graph tasks state) := by
  induction tasks generalizing state with
  | nil => exact ⟨.refl state, by simp⟩
  | cons task rest ih =>
      cases task with
      | error joinError => trivial
      | ok result =>
          unfold joinTasks
          split
          · rename_i hMissing
            refine Uses.mono (fun _ h => h) ?_ ih
            intro next hPass
            refine ⟨hPass.leads, ?_⟩
            intro node hNode task hMem hTask
            rcases List.mem_cons.mp hMem with hHead | hTail
            · subst hHead
              have hCall := (hTask result rfl).callId
              have hNone :=
                List.find?_eq_none.mp hMissing node hNode
              simp [hCall] at hNone
            · exact hPass.settles node hNode task hTail hTask
          · rename_i found hFound
            rw [Uses.bind_iff]
            apply uses_appendToolCheckpoint
              (List.mem_of_find?_eq_some hFound)
            refine Uses.mono (fun _ h => h) ?_ ih
            intro next hPass
            have hTerminal :=
              finalStatusForResult_isTerminal result
            have hFoundId : found.callId = result.callId := by
              simpa using List.find?_some hFound
            refine ⟨?_, ?_⟩
            · exact (BatchState.leadsTo_record
                hTerminal).trans hPass.leads
            · intro node hNode task hMem hTask
              rcases List.mem_cons.mp hMem with hHead | hTail
              · subst hHead
                have hCall := (hTask result rfl).callId
                rw [← hCall, ← hFoundId]
                exact hPass.leads _
                  (BatchState.record_settled hTerminal)
              · exact hPass.settles node hNode task hTail
                  hTask

end Rounds

------------------------------------------------------------
-- The Loop Ends
------------------------------------------------------------

/- How many of the given nodes are not settled. -/
def unsettledCount
    (nodes : List ToolNode)
    (state : BatchState) :
    Nat :=
  nodes.countP fun node =>
    !isTerminalStatus (state.status node.callId)

/-
  Nothing is left to do for a graph: a node is settled, or no
  failed dependency blocks it and it is not ready.
-/
def Quiescent
    (graph : ToolExecutionGraph)
    (status : StatusMap) :
    Prop :=
  ∀ node ∈ graph.nodes,
    isTerminalStatus (status node.callId) = true ∨
      (blockingDependency status node = none ∧
        node.isReady status = false)

section Loop

variable {engine : AgentEngine}
variable {context : AgentContext}
variable {graph : ToolExecutionGraph}
variable {state : BatchState}

theorem unsettledCount_le
    (nodes : List ToolNode)
    {next : BatchState}
    (hLeads : state.LeadsTo next) :
    unsettledCount nodes next ≤ unsettledCount nodes state := by
  apply List.countP_mono_left
  intro node _ hNext
  by_contra hSettled
  have hState : state.Settled node.callId := by
    simpa [BatchState.Settled] using hSettled
  have hLater := hLeads node.callId hState
  unfold BatchState.Settled at hLater
  simp [hLater] at hNext

/- Settling a node makes fewer nodes unsettled. -/
theorem unsettledCount_lt
    {next : BatchState}
    {node : ToolNode}
    (hLeads : state.LeadsTo next)
    (hNode : node ∈ graph.nodes)
    (hBefore : ¬state.Settled node.callId)
    (hAfter : next.Settled node.callId) :
    unsettledCount graph.nodes next <
      unsettledCount graph.nodes state := by
  rcases List.append_of_mem hNode with ⟨front, back, hNodes⟩
  have hFront := unsettledCount_le front hLeads
  have hBack := unsettledCount_le back hLeads
  unfold BatchState.Settled at hBefore hAfter
  unfold unsettledCount at hFront hBack ⊢
  rw [hNodes, List.countP_append, List.countP_append,
    List.countP_cons, List.countP_cons]
  simp only [hAfter, hBefore, Bool.not_true, Bool.not_false,
    if_true, Bool.false_eq_true, if_false]
  omega

theorem nextWave_eq_nil
    {policy : EnginePolicy}
    {status : StatusMap}
    (hEmpty : (nextWave policy graph status).isEmpty = true) :
    ∀ node ∈ graph.nodes, node.isReady status = false := by
  have hReady : readyNodes graph status = [] := by
    rw [List.isEmpty_iff] at hEmpty
    unfold nextWave at hEmpty
    rcases List.take_eq_nil_iff.mp hEmpty with hZero | hNil
    · have hOne := Nat.le_max_right policy.maxReadyToolNodes 1
      have hNat :
          policy.maxReadyToolNodes.max 1 =
            max policy.maxReadyToolNodes 1 := rfl
      omega
    · exact hNil
  intro node hNode
  by_contra hNotFalse
  have hMem : node ∈ readyNodes graph status := by
    unfold readyNodes
    rw [List.mem_insertionSort]
    exact List.mem_filter.mpr
      ⟨hNode, by simpa using hNotFalse⟩
  rw [hReady] at hMem
  cases hMem

/- A node of a wave is a ready node of the graph. -/
theorem of_mem_nextWave
    {policy : EnginePolicy}
    {status : StatusMap}
    {node : ToolNode}
    (hNode : node ∈ nextWave policy graph status) :
    node ∈ graph.nodes ∧ node.isReady status = true := by
  unfold nextWave readyNodes at hNode
  have hMem := List.mem_of_mem_take hNode
  rw [List.mem_insertionSort] at hMem
  exact List.mem_filter.mp hMem

theorem not_settled_of_isReady
    {node : ToolNode}
    (hReady : node.isReady state.status = true) :
    ¬state.Settled node.callId := by
  unfold ToolNode.isReady at hReady
  unfold BatchState.Settled
  intro hSettled
  simp [hSettled] at hReady

theorem maxParallel_pos (policy : EnginePolicy) :
    0 < maxParallel policy := by
  unfold maxParallel
  have hCalls := Nat.le_max_right
    policy.maxParallelSkillCalls 1
  have hReady := Nat.le_max_right policy.maxReadyToolNodes 1
  exact Nat.lt_min.mpr ⟨hCalls, hReady⟩

theorem uses_runGraph
    {step fuel : Nat} :
    Uses
      (fun op => op = .outOfFuel ∨
        BatchRequest engine context graph op)
      (fun _ => True)
      (runGraph engine context graph step fuel state) := by
  induction fuel generalizing state with
  | zero => exact ⟨.inl rfl, nofun⟩
  | succ fuel ih =>
      unfold runGraph
      refine Uses.bind (Uses.mono (fun _ h => .inr h)
        (fun _ h => h)
        (uses_skipBlockedNodes (fun _ h => h))) ?_
      rintro ⟨state, skipped⟩ _
      dsimp only
      split
      · split
        · exact ih
        · trivial
      · refine Uses.bind (Uses.mono (fun _ h => .inr h)
          (fun _ h => h) (uses_prepareWave ?_)) ?_
        · intro node hMem
          exact (of_mem_nextWave
            (List.mem_of_mem_take hMem)).1
        · rintro ⟨state, tasks⟩ _
          rw [Uses.bind_iff, uses_perform]
          refine ⟨.inr (.completions tasks), ?_⟩
          intro finished
          refine Uses.bind (Uses.mono (fun _ h => .inr h)
            (fun _ h => h) uses_joinTasks) ?_
          intro state _
          exact ih

theorem uses_executeGraph
    {step : Nat} :
    Uses
      (fun op => op = .outOfFuel ∨
        BatchRequest engine context graph op)
      (fun _ => True)
      (executeGraph engine context graph step) := by
  unfold executeGraph
  refine Uses.bind uses_runGraph ?_
  intro state _
  trivial

/- A program with the footprint of a batch is a safe part. -/
theorem safe_of_batchRequest
    {α : Type}
    {V : α → Prop}
    {p : EngineM α}
    {w : World}
    (hUses : Uses (BatchRequest engine context graph) V p) :
    Safe host (fun _ op => op ≠ .outOfFuel)
      (fun a _ => V a) (fun _ _ => True) p w := by
  refine Safe.mono (fun _ _ h => h) (fun _ _ h => h.1)
    (fun _ _ _ => trivial)
    (Uses.safe (I := fun _ => True) hUses ?_ ?_ trivial)
  · rintro w op _ hOp hEq
    subst hEq
    cases hOp
  · intros
    trivial

/- A wave takes at least one ready node. -/
theorem exists_mem_wave
    {policy : EnginePolicy}
    {status : StatusMap}
    (hReady :
      ¬(nextWave policy graph status).isEmpty = true) :
    ∃ node, node ∈ (nextWave policy graph status).take
      (maxParallel policy) := by
  apply List.exists_mem_of_ne_nil
  intro hNil
  rcases List.take_eq_nil_iff.mp hNil with hZero | hEmpty
  · have hPos := maxParallel_pos policy
    omega
  · simp [hEmpty] at hReady

/-
  With more fuel than unsettled nodes the loop ends, and then
  nothing is left to do.
-/
theorem runGraph_ends
    {step fuel : Nat}
    {w : World}
    (hFuel : unsettledCount graph.nodes state < fuel) :
    Safe host (fun _ op => op ≠ .outOfFuel)
      (fun final _ => state.LeadsTo final ∧
        Quiescent graph final.status)
      (fun _ _ => True)
      (runGraph engine context graph step fuel state) w := by
  induction fuel generalizing state w with
  | zero => omega
  | succ fuel ih =>
      -- a round that settles a node leaves enough fuel
      have hRound : ∀ (next : BatchState) (w : World)
          (node : ToolNode), state.LeadsTo next →
          node ∈ graph.nodes → ¬state.Settled node.callId →
          next.Settled node.callId →
          Safe host (fun _ op => op ≠ .outOfFuel)
            (fun final _ => state.LeadsTo final ∧
              Quiescent graph final.status)
            (fun _ _ => True)
            (runGraph engine context graph step fuel next)
            w := by
        intro next w node hLeads hNode hBefore hAfter
        have hLess :=
          unsettledCount_lt hLeads hNode hBefore hAfter
        refine Safe.mono (fun _ _ h => h) ?_
          (fun _ _ h => h) (ih (by omega))
        rintro final _ ⟨hFinal, hQuiet⟩
        exact ⟨hLeads.trans hFinal, hQuiet⟩
      have hSkipUses :
          Uses (BatchRequest engine context graph)
            (SkipPass graph.nodes state false)
            (skipBlockedNodes graph graph.nodes state
              false) :=
        uses_skipBlockedNodes (fun _ h => h)
      unfold runGraph
      refine Safe.bind (safe_of_batchRequest hSkipUses) ?_
      rintro ⟨skipState, skipped⟩ w hSkip
      dsimp only
      split
      · rename_i hEmpty
        split
        · rename_i hSkipped
          rcases hSkip.settles hSkipped with hFalse | hNode
          · cases hFalse
          · rcases hNode with ⟨node, hMem, hBefore, hAfter⟩
            exact hRound skipState w node hSkip.leads hMem
              hBefore hAfter
        · rename_i hIdle
          rcases hSkip.idle (by simpa using hIdle) with
            ⟨hEq, hFree⟩
          have hReady := nextWave_eq_nil hEmpty
          dsimp only at hEq
          subst hEq
          refine ⟨hSkip.leads, ?_⟩
          intro node hNode
          rcases hFree node hNode with hSettled | hUnblocked
          · exact .inl hSettled
          · exact .inr ⟨hUnblocked, hReady node hNode⟩
      · rename_i hReady
        have hWaveNodes :
            ∀ n ∈ (nextWave context.metadata.policy graph
                skipState.status).take
                  (maxParallel context.metadata.policy),
              n ∈ graph.nodes ∧
                n.isReady skipState.status = true :=
          fun n hMem =>
            of_mem_nextWave (List.mem_of_mem_take hMem)
        rcases exists_mem_wave hReady with ⟨node, hMem⟩
        refine Safe.bind (safe_of_batchRequest
          (uses_prepareWave
            (fun n h => (hWaveNodes n h).1))) ?_
        rintro ⟨waveState, tasks⟩ w hWave
        rw [Safe.bind_iff, safe_perform]
        refine ⟨by simp, ?_⟩
        intro finished hPerm
        have hJoinUses :
            Uses (BatchRequest engine context graph)
              (JoinPass engine context graph finished
                waveState)
              (joinTasks graph finished waveState) :=
          uses_joinTasks
        refine Safe.bind (safe_of_batchRequest hJoinUses) ?_
        intro joined w hJoin
        rcases hWaveNodes node hMem with ⟨hNode, hIsReady⟩
        have hUnsettled : ¬state.Settled node.callId :=
          fun h => not_settled_of_isReady hIsReady
            (hSkip.leads _ h)
        have hSettled : joined.Settled node.callId := by
          rcases hWave.covers node hMem with hNow | hTask
          · exact hJoin.leads _ hNow
          · rcases hTask with ⟨task, hTask, hFor⟩
            exact hJoin.settles node hNode task
              (hPerm.subset hTask) hFor
        exact hRound joined _ node
          ((hSkip.leads.trans hWave.leads).trans hJoin.leads)
          hNode hUnsettled hSettled

theorem unsettledCount_lt_fuel
    (state : BatchState) :
    unsettledCount graph.nodes state <
      graph.nodes.length + 1 :=
  Nat.lt_succ_of_le List.countP_le_length

/- The fuel of a batch is enough for its graph. -/
theorem executeGraph_ends
    {step : Nat}
    {w : World} :
    Safe host (fun _ op => op ≠ .outOfFuel)
      (fun _ _ => True) (fun _ _ => True)
      (executeGraph engine context graph step) w := by
  unfold executeGraph
  refine Safe.bind
    (runGraph_ends (unsettledCount_lt_fuel _)) ?_
  intros
  trivial

end Loop

end RainEngine
