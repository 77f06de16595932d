import RainEngine.Batches.Ordering
import RainEngine.Dependencies.Schedules

/-
  This file reads the loop of a batch as a schedule. Whatever
  the calls return, the loop decides one open node after the
  other: it skips nodes that are blocked, and ends nodes whose
  dependencies have all succeeded. What it leaves open and
  what it returns follow from that alone.

  Key definitions include:
    * `BatchTurn`
    * `BatchRun`
    * `BatchState.Accounts`

  Key theorems include:
    * `runGraph_schedules`
    * `BatchRun.schedule`
    * `BatchRun.accounts`
    * `orderedResults_ids`
-/

namespace RainEngine

open Effects
open Dependencies (Turn Schedule Waiting)

------------------------------------------------------------
-- Turns Of A Batch
------------------------------------------------------------

/- One decision of the loop, or a change of its counters. -/
inductive BatchTurn
    (graph : ToolExecutionGraph)
    (state : BatchState) :
    BatchState → Prop where
  | skip
      {node : ToolNode}
      {blockedBy : ToolDependency}
      {result : ToolResultRecord}
      (hNode : node ∈ graph.nodes)
      (hOpen : ¬state.Settled node.callId)
      (hBlocked :
        blockingDependency state.status node = some blockedBy)
      (hResult : result.callId = node.callId) :
      BatchTurn graph state
        (state.record node.callId .skipped result)
  | finish
      {node : ToolNode}
      {result : ToolResultRecord}
      (hNode : node ∈ graph.nodes)
      (hReady : node.isReady state.status = true)
      (hResult : result.callId = node.callId) :
      BatchTurn graph state
        (state.record node.callId
          (finalStatusForResult result) result)
  | count
      {attempts : AttemptMap} :
      BatchTurn graph state { state with attempts := attempts }

/- Any number of turns. -/
def BatchRun (graph : ToolExecutionGraph) :
    BatchState → BatchState → Prop :=
  Relation.ReflTransGen (BatchTurn graph)

/- Distinct calls of nodes that are ready. -/
structure Awaited
    (graph : ToolExecutionGraph)
    (state : BatchState)
    (callIds : List String) : Prop where
  nodup : callIds.Nodup
  ready :
    ∀ node ∈ graph.nodes, node.callId ∈ callIds →
      node.isReady state.status = true

section Turns

variable {graph : ToolExecutionGraph}
variable {state : BatchState}
variable {node other : ToolNode}
variable {callId : String}
variable {callIds more : List String}
variable {status : ToolNodeStatus}
variable {result : ToolResultRecord}

theorem open_of_isReady
    (hReady : node.isReady state.status = true) :
    ¬state.Settled node.callId := by
  unfold ToolNode.isReady at hReady
  rw [Bool.and_eq_true, Bool.not_eq_true'] at hReady
  intro hSettled
  unfold BatchState.Settled at hSettled
  rw [hReady.1] at hSettled
  cases hSettled

theorem succeeded_of_isReady
    (hReady : node.isReady state.status = true) :
    ∀ dependency ∈ node.dependencies,
      state.status dependency.callId = some .succeeded := by
  unfold ToolNode.isReady at hReady
  rw [Bool.and_eq_true, List.all_eq_true] at hReady
  intro dependency hMem
  simpa using hReady.2 dependency hMem

/- A ready node stays ready while other calls are decided. -/
theorem isReady_record
    (hReady : other.isReady state.status = true)
    (hOpen : ¬state.Settled callId)
    (hOther : other.callId ≠ callId) :
    other.isReady (state.record callId status result).status =
      true := by
  have hUnsettled := open_of_isReady hReady
  have hSupplied := succeeded_of_isReady hReady
  have hKept : ∀ dependency ∈ other.dependencies,
      dependency.callId ≠ callId := by
    intro dependency hMem hSame
    apply hOpen
    unfold BatchState.Settled
    rw [← hSame, hSupplied dependency hMem]
    rfl
  unfold ToolNode.isReady
  rw [Bool.and_eq_true, List.all_eq_true]
  constructor
  · unfold BatchState.Settled at hUnsettled
    simpa [BatchState.record, hOther] using hUnsettled
  · intro dependency hMem
    have hOld := hSupplied dependency hMem
    simpa [BatchState.record, hKept dependency hMem] using hOld

theorem Awaited.perm
    (hAwaited : Awaited graph state callIds)
    (hPerm : callIds.Perm more) :
    Awaited graph state more := by
  refine ⟨hPerm.nodup_iff.mp hAwaited.nodup, ?_⟩
  intro node hNode hMem
  exact hAwaited.ready node hNode (hPerm.mem_iff.mpr hMem)

theorem Awaited.sublist
    (hAwaited : Awaited graph state callIds)
    (hSublist : more.Sublist callIds) :
    Awaited graph state more := by
  refine ⟨hAwaited.nodup.sublist hSublist, ?_⟩
  intro node hNode hMem
  exact hAwaited.ready node hNode (hSublist.subset hMem)

/- Deciding one call leaves the others awaited. -/
theorem Awaited.record
    (hAwaited : Awaited graph state (callId :: callIds))
    (hOpen : ¬state.Settled callId) :
    Awaited graph (state.record callId status result)
      callIds := by
  rcases List.nodup_cons.mp hAwaited.nodup with
    ⟨hNew, hNodup⟩
  refine ⟨hNodup, ?_⟩
  intro node hNode hMem
  have hReady := hAwaited.ready node hNode
    (List.mem_cons_of_mem _ hMem)
  apply isReady_record hReady hOpen
  intro hSame
  rw [hSame] at hMem
  exact hNew hMem

end Turns

------------------------------------------------------------
-- The Loop As A Schedule
------------------------------------------------------------

/- A machine that joins the tasks it is given, in any order. -/
def JoinsAll
    {V : Type}
    (M : Machine Op Answer V) :
    Prop :=
  ∀ v tasks a, M.allowed v (.completions tasks) a →
    tasks.Perm a

section Loop

variable {V : Type}
variable {M : Machine Op Answer V}
variable {engine : AgentEngine}
variable {context : AgentContext}
variable {graph : ToolExecutionGraph}
variable {start state : BatchState}
variable {v : V}

/- A part that decides nothing is safe. -/
theorem safe_result
    {α : Type}
    {S : Op → Prop}
    {W : α → Prop}
    {p : EngineM α}
    (hUses : Uses S W p) :
    Safe M (fun _ _ => True) (fun a _ => W a)
      (fun _ _ => True) p v :=
  Safe.mono (fun _ _ h => h) (fun _ _ h => h.1)
    (fun _ _ _ => trivial)
    (hUses.safe (I := fun _ => True)
      (fun _ _ _ _ => trivial)
      (fun _ _ _ _ _ _ => trivial) trivial)

theorem skipBlockedNodes_schedules
    {nodes : List ToolNode}
    {changed : Bool}
    (hNodes : ∀ node ∈ nodes, node ∈ graph.nodes)
    (hRun : BatchRun graph start state) :
    Safe M (fun _ _ => True)
      (fun next _ => BatchRun graph start next.1)
      (fun _ _ => True)
      (skipBlockedNodes graph nodes state changed) v := by
  induction nodes generalizing state changed v with
  | nil => exact hRun
  | cons node rest ih =>
      have hNode := hNodes node List.mem_cons_self
      have hRest : ∀ n ∈ rest, n ∈ graph.nodes :=
        fun n hMem => hNodes n (List.mem_cons_of_mem _ hMem)
      unfold skipBlockedNodes
      split
      · exact ih hRest hRun
      · rename_i hOpen
        split
        · exact ih hRest hRun
        · rename_i blockedBy hBlocked
          refine Safe.bind (Safe.any M _ v) ?_
          intro _ v' _
          apply ih hRest
          exact hRun.tail (.skip hNode hOpen hBlocked rfl)

theorem prepareWave_schedules
    {step : Nat}
    {nodes : List ToolNode}
    {tasks : List ToolTask}
    (hNodes : ∀ node ∈ nodes, node ∈ graph.nodes)
    (hAwaited : Awaited graph state
      (reportedIds tasks ++ nodes.map (·.callId)))
    (hRun : BatchRun graph start state) :
    Safe M (fun _ _ => True)
      (fun next _ => BatchRun graph start next.1 ∧
        Awaited graph next.1 (reportedIds next.2))
      (fun _ _ => True)
      (prepareWave engine context graph step nodes state
        tasks) v := by
  induction nodes generalizing state tasks v with
  | nil =>
      rw [List.map_nil, List.append_nil] at hAwaited
      exact ⟨hRun, hAwaited⟩
  | cons node rest ih =>
      have hNode := hNodes node List.mem_cons_self
      have hRest : ∀ n ∈ rest, n ∈ graph.nodes :=
        fun n hMem => hNodes n (List.mem_cons_of_mem _ hMem)
      have hReady := hAwaited.ready node hNode (by simp)
      unfold prepareWave
      refine Safe.bind (safe_result (uses_prepareNode hNode)) ?_
      rintro ⟨prepared, attempts⟩ v' hFor
      have hCounted : BatchRun graph start
          { state with attempts := attempts } :=
        hRun.tail .count
      cases hFor with
      | @executable call hCall =>
          refine Safe.bind (safe_result
            (uses_runPreparedCall (S := fun _ => True) hCall
              trivial (fun _ => trivial))) ?_
          intro task v'' hTask
          have hWaiting : Awaited graph
              { state with attempts := attempts }
              (reportedIds (tasks ++ [task]) ++
                rest.map (·.callId)) := by
            have hAll : Awaited graph
                { state with attempts := attempts }
                (reportedIds tasks ++
                  (node :: rest).map (·.callId)) :=
              ⟨hAwaited.nodup, hAwaited.ready⟩
            rw [reportedIds_append]
            cases task with
            | ok result =>
                have hId := (hTask result rfl).callId
                simpa [reportedIds, hId] using hAll
            | error joinError =>
                apply hAll.sublist
                simp [reportedIds]
          exact ih hRest hWaiting hCounted
      | @immediate kind message hKind _ =>
          apply ih hRest
          · have hOrder :
                (reportedIds tasks ++
                  (node :: rest).map (·.callId)).Perm
                (node.callId :: (reportedIds tasks ++
                  rest.map (·.callId))) :=
              List.perm_middle
            have hFirst := hAwaited.perm hOrder
            have hAll : Awaited graph
                { state with attempts := attempts }
                (node.callId :: (reportedIds tasks ++
                  rest.map (·.callId))) :=
              ⟨hFirst.nodup, hFirst.ready⟩
            exact hAll.record (open_of_isReady hReady)
          · exact hCounted.tail (.finish hNode hReady rfl)

theorem joinTasks_schedules
    {tasks : List ToolTask}
    (hAwaited : Awaited graph state (reportedIds tasks))
    (hRun : BatchRun graph start state) :
    Safe M (fun _ _ => True)
      (fun next _ => BatchRun graph start next)
      (fun _ _ => True) (joinTasks graph tasks state) v := by
  induction tasks generalizing state v with
  | nil => exact hRun
  | cons task rest ih =>
      cases task with
      | error joinError => trivial
      | ok result =>
          have hAll : Awaited graph state
              (result.callId :: reportedIds rest) :=
            hAwaited
          unfold joinTasks
          split
          · exact ih
              (hAll.sublist (List.sublist_cons_self _ _)) hRun
          · rename_i node hFound
            have hId : node.callId = result.callId := by
              simpa using List.find?_some hFound
            have hNode := List.mem_of_find?_eq_some hFound
            have hReady := hAll.ready node hNode
              (by simp [hId])
            refine Safe.bind (Safe.any M _ v) ?_
            intro _ v' _
            apply ih
            · rw [← hId] at hAll
              exact hAll.record (open_of_isReady hReady)
            · exact hRun.tail (.finish hNode hReady hId.symm)

/- The loop is a run of turns, whatever the calls return. -/
theorem runGraph_schedules
    {step fuel : Nat}
    (hJoins : JoinsAll M)
    (hNodup : (graph.nodes.map (·.callId)).Nodup)
    (hRun : BatchRun graph start state) :
    Safe M (fun _ _ => True)
      (fun final _ => BatchRun graph start final)
      (fun _ _ => True)
      (runGraph engine context graph step fuel state) v := by
  induction fuel generalizing state v with
  | zero =>
      refine ⟨trivial, ?_⟩
      intro answer
      cases answer
  | succ fuel ih =>
      unfold runGraph
      refine Safe.bind
        (skipBlockedNodes_schedules (fun _ h => h) hRun) ?_
      rintro ⟨skipState, skipped⟩ v hSkip
      dsimp only
      split
      · split
        · exact ih hSkip
        · exact hSkip
      · have hWave :
            ∀ n ∈ (nextWave context.metadata.policy graph
                skipState.status).take
                  (maxParallel context.metadata.policy),
              n ∈ graph.nodes ∧
                n.isReady skipState.status = true :=
          fun n hMem =>
            of_mem_nextWave (List.mem_of_mem_take hMem)
        refine Safe.bind (prepareWave_schedules
          (fun n hMem => (hWave n hMem).1) ?_ hSkip) ?_
        · refine ⟨nodup_wave hNodup, ?_⟩
          intro n hNode hMem
          rcases List.mem_map.mp hMem with ⟨m, hM, hId⟩
          have hSame := List.inj_on_of_nodup_map hNodup
            (hWave m hM).1 hNode hId
          rw [← hSame]
          exact (hWave m hM).2
        · rintro ⟨waveState, tasks⟩ v ⟨hWaved, hAwaited⟩
          rw [Safe.bind_iff, safe_perform]
          refine ⟨trivial, ?_⟩
          intro finished hAllowed
          have hPerm := hJoins _ _ _ hAllowed
          refine Safe.bind (joinTasks_schedules
            (hAwaited.perm (hPerm.filterMap _)) hWaved) ?_
          intro joined v hJoined
          exact ih hJoined

end Loop

------------------------------------------------------------
-- What A Run Decides
------------------------------------------------------------

/- Whether each call is decided, and with success. -/
def successOf (status : StatusMap) (callId : String) :
    Option Bool :=
  (settled (status callId)).map (· = .succeeded)

section Decisions

variable {engine : AgentEngine}
variable {context : AgentContext}
variable {graph : ToolExecutionGraph}
variable {start state next : BatchState}
variable {status : StatusMap}
variable {callId : String}

theorem successOf_eq_none_iff :
    successOf status callId = none ↔
      isTerminalStatus (status callId) = false := by
  rw [← Bool.not_eq_true, isTerminalStatus_iff]
  simp [successOf]

theorem successOf_eq_true_iff :
    successOf status callId = some true ↔
      status callId = some .succeeded := by
  rw [← settled_succeeded_iff]
  simp [successOf]

theorem successOf_eq_false_iff :
    successOf status callId = some false ↔
      status callId = some .failed ∨
        status callId = some .skipped ∨
        status callId = some .timedOut := by
  unfold successOf settled
  cases status callId with
  | none => simp
  | some newest => cases newest <;> simp [ToolNodeStatus.isTerminal]

/- A decision changes the outcome of its own call only. -/
theorem successOf_record
    {terminal : ToolNodeStatus}
    {result : ToolResultRecord}
    (hTerminal : terminal.isTerminal = true) :
    successOf (state.record callId terminal result).status =
      Function.update (successOf state.status) callId
        (some (decide (terminal = .succeeded))) := by
  funext other
  by_cases hSame : other = callId
  · subst hSame
    simp [successOf, BatchState.record, settled,
      Option.filter, hTerminal]
  · simp [successOf, BatchState.record, hSame]

/- A turn of the loop is a turn of the dependency system. -/
theorem BatchTurn.schedule
    (hNodup : (graph.nodes.map (·.callId)).Nodup)
    (hTurn : BatchTurn graph state next) :
    Schedule (batchSystem engine context graph.nodes)
      (successOf state.status) (successOf next.status) := by
  cases hTurn with
  | @skip node blockedBy result hNode hOpen hBlocked _ =>
      have hMem := List.mem_of_find?_eq_some hBlocked
      have hFailed := List.find?_some hBlocked
      rw [decide_eq_true_eq] at hFailed
      rw [successOf_record rfl]
      refine .single (.giveUp
        (List.mem_map_of_mem hNode) ?_
        ⟨node, hNode, rfl, List.mem_map_of_mem hMem⟩
        (successOf_eq_false_iff.mpr hFailed))
      rw [successOf_eq_none_iff]
      exact Bool.eq_false_iff.mpr hOpen
  | @finish node result hNode hReady _ =>
      rw [successOf_record (finalStatusForResult_isTerminal _)]
      refine .single (.finish _ (List.mem_map_of_mem hNode)
        ?_ ?_)
      · rw [successOf_eq_none_iff]
        exact Bool.eq_false_iff.mpr (open_of_isReady hReady)
      · rintro needed ⟨other, hOther, hId, hNeeds⟩
        have hSame := List.inj_on_of_nodup_map hNodup hOther
          hNode hId
        subst hSame
        rcases List.mem_map.mp hNeeds with
          ⟨dependency, hMem, hEq⟩
        subst hEq
        exact successOf_eq_true_iff.mpr
          (succeeded_of_isReady hReady dependency hMem)
  | count => exact .refl

theorem BatchRun.schedule
    (hNodup : (graph.nodes.map (·.callId)).Nodup)
    (hRun : BatchRun graph start state) :
    Schedule (batchSystem engine context graph.nodes)
      (successOf start.status) (successOf state.status) := by
  induction hRun with
  | refl => exact .refl
  | tail _ hTurn ih => exact ih.trans (hTurn.schedule hNodup)

/- A loop that has come to its end leaves a quiet system. -/
theorem Quiescent.quiet
    (hNodup : (graph.nodes.map (·.callId)).Nodup)
    (hQuiet : Quiescent graph status) :
    Dependencies.Quiet
      (batchSystem engine context graph.nodes)
      (successOf status) := by
  intro callId hMember hOpen
  rw [successOf_eq_none_iff] at hOpen
  rcases List.mem_map.mp hMember with ⟨node, hNode, hId⟩
  subst hId
  rcases hQuiet node hNode with
    hTerminal | ⟨hBlocking, hNotReady⟩
  · rw [hOpen] at hTerminal
    cases hTerminal
  · constructor
    · rintro needed ⟨other, hOther, hOtherId, hNeeds⟩ hFalse
      have hSame := List.inj_on_of_nodup_map hNodup hOther
        hNode hOtherId
      subst hSame
      rcases List.mem_map.mp hNeeds with
        ⟨dependency, hMem, hEq⟩
      subst hEq
      have hNone := List.find?_eq_none.mp hBlocking
        dependency hMem
      rw [decide_eq_true_eq] at hNone
      exact hNone (successOf_eq_false_iff.mp hFalse)
    · unfold ToolNode.isReady at hNotReady
      rw [hOpen, Bool.not_false, Bool.true_and,
        List.all_eq_false] at hNotReady
      rcases hNotReady with ⟨dependency, hMem, hNot⟩
      refine ⟨dependency.callId, ?_, ?_⟩
      · exact ⟨node, hNode, rfl, List.mem_map_of_mem hMem⟩
      · intro hTrue
        apply hNot
        rw [decide_eq_true_eq]
        exact successOf_eq_true_iff.mp hTrue

end Decisions

------------------------------------------------------------
-- The Results Of A Run
------------------------------------------------------------

/-
  The new results are those of the calls decided since the
  start, one for each, and all of them calls of the graph.
-/
structure BatchState.Accounts
    (graph : ToolExecutionGraph)
    (start state : BatchState) : Prop where
  kept : start.LeadsTo state
  nodup : (state.newResults.map (·.callId)).Nodup
  covers :
    ∀ callId, callId ∈ state.newResults.map (·.callId) ↔
      ¬start.Settled callId ∧ state.Settled callId

section Results

variable {graph : ToolExecutionGraph}
variable {start state : BatchState}
variable {callId : String}
variable {status : ToolNodeStatus}
variable {result : ToolResultRecord}

theorem settled_record_iff
    {other : String}
    (hTerminal : status.isTerminal = true) :
    (state.record callId status result).Settled other ↔
      other = callId ∨ state.Settled other := by
  by_cases hSame : other = callId
  · subst hSame
    simp [BatchState.record_settled hTerminal]
  · unfold BatchState.Settled
    simp [BatchState.record, hSame]

theorem BatchState.Accounts.record
    (hAccounts : BatchState.Accounts graph start state)
    (hOpen : ¬state.Settled callId)
    (hTerminal : status.isTerminal = true)
    (hResult : result.callId = callId) :
    BatchState.Accounts graph start
      (state.record callId status result) := by
  have hIds :
      (state.record callId status result).newResults.map
          (·.callId) =
        state.newResults.map (·.callId) ++ [callId] := by
    simp [BatchState.record, hResult]
  have hNew : callId ∉ state.newResults.map (·.callId) := by
    intro hMem
    exact hOpen ((hAccounts.covers callId).mp hMem).2
  have hFirst : ¬start.Settled callId :=
    fun hSettled => hOpen (hAccounts.kept callId hSettled)
  constructor
  · exact hAccounts.kept.trans
      (BatchState.leadsTo_record hTerminal)
  · rw [hIds]
    exact List.Nodup.append hAccounts.nodup
      (List.nodup_singleton _) (by simpa using hNew)
  · intro other
    rw [hIds, List.mem_append, List.mem_singleton,
      hAccounts.covers other, settled_record_iff hTerminal]
    by_cases hSame : other = callId
    · subst hSame
      simp [hFirst]
    · simp [hSame]

/- A run has one result for each call it decides. -/
theorem BatchRun.accounts
    (hStart : start.newResults = [])
    (hRun : BatchRun graph start state) :
    BatchState.Accounts graph start state := by
  induction hRun with
  | refl =>
      refine ⟨.refl start, by simp [hStart], ?_⟩
      intro callId
      simp [hStart]
  | tail _ hTurn ih =>
      cases hTurn with
      | skip hNode hOpen hBlocked hResult =>
          exact ih.record hOpen rfl hResult
      | finish hNode hReady hResult =>
          exact ih.record (open_of_isReady hReady)
            (finalStatusForResult_isTerminal _) hResult
      | count => exact ⟨ih.kept, ih.nodup, ih.covers⟩

/- The results in the order of the nodes. -/
theorem orderedResults_ids
    (hAccounts : BatchState.Accounts graph start state) :
    (orderedResults graph state.newResults).map (·.callId) =
      (graph.nodes.filter fun node =>
        !isTerminalStatus (start.status node.callId) &&
          isTerminalStatus (state.status node.callId)).map
        (·.callId) := by
  unfold orderedResults
  induction graph.nodes with
  | nil => rfl
  | cons node rest ih =>
      have hCovers := hAccounts.covers node.callId
      unfold BatchState.Settled at hCovers
      cases hFind : state.newResults.find?
          (·.callId = node.callId) with
      | none =>
          have hAbsent : node.callId ∉
              state.newResults.map (·.callId) := by
            intro hMem
            rcases List.mem_map.mp hMem with
              ⟨result, hResult, hId⟩
            have hNone := List.find?_eq_none.mp hFind result
              hResult
            simp [hId] at hNone
          rw [hCovers] at hAbsent
          rw [List.filterMap_cons, hFind,
            List.filter_cons_of_neg (by simpa using hAbsent)]
          exact ih
      | some result =>
          have hId : result.callId = node.callId := by
            simpa using List.find?_some hFind
          have hPresent : node.callId ∈
              state.newResults.map (·.callId) :=
            List.mem_map.mpr
              ⟨result, List.mem_of_find?_eq_some hFind, hId⟩
          rw [hCovers] at hPresent
          rw [List.filterMap_cons, hFind, List.map_cons,
            List.filter_cons_of_pos (by simpa using hPresent),
            List.map_cons, hId]
          exact congrArg (node.callId :: ·) ih

end Results

end RainEngine
