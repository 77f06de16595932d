import RainEngine.Batches.Journal

/-
  This file proves in which order a batch starts its nodes. A
  wave starts the first ready nodes in their scheduling order,
  after all their dependencies have succeeded, and no more
  nodes run at a time than the policy allows.

  Key definitions include:
    * `statusesAfter`
    * `inFlight`
    * `GreedyStart`
    * `InOrder`

  Key theorems include:
    * `readyNodes_pairwise`
    * `readyNodes_settle`
    * `runGraph_inOrder`
    * `executeGraph_inOrder`
-/

namespace RainEngine

open Effects

------------------------------------------------------------
-- The Scheduling Order
------------------------------------------------------------

section Order

variable {graph : ToolExecutionGraph}
variable {status status' : StatusMap}
variable {node : ToolNode}

theorem ToolNode.runsBefore_total
    (left right : ToolNode) :
    left.runsBefore right ∨ right.runsBefore left := by
  unfold ToolNode.runsBefore
  rcases String.le_total left.callId right.callId with
    hLess | hGreater
  · by_cases hSame : right.priority = left.priority ∧
        left.providerOrder = right.providerOrder
    · exact .inl (.inr ⟨hSame.1, .inr ⟨hSame.2, hLess⟩⟩)
    · omega
  · by_cases hSame : right.priority = left.priority ∧
        left.providerOrder = right.providerOrder
    · exact .inr (.inr ⟨hSame.1.symm,
        .inr ⟨hSame.2.symm, hGreater⟩⟩)
    · omega

theorem ToolNode.runsBefore_trans
    {first second third : ToolNode}
    (hFirst : first.runsBefore second)
    (hSecond : second.runsBefore third) :
    first.runsBefore third := by
  unfold ToolNode.runsBefore at hFirst hSecond ⊢
  rcases hFirst with hLess | ⟨hSame, hLess | ⟨hTie, hId⟩⟩
  · rcases hSecond with hNext | ⟨hEq, _⟩
    · exact .inl (by omega)
    · exact .inl (by omega)
  · rcases hSecond with hNext | ⟨hEq, hNext | ⟨hEq', _⟩⟩
    · exact .inl (by omega)
    · exact .inr ⟨by omega, .inl (by omega)⟩
    · exact .inr ⟨by omega, .inl (by omega)⟩
  · rcases hSecond with hNext | ⟨hEq, hNext | ⟨hEq', hId'⟩⟩
    · exact .inl (by omega)
    · exact .inr ⟨by omega, .inl (by omega)⟩
    · exact .inr ⟨by omega,
        .inr ⟨by omega, String.le_trans hId hId'⟩⟩

/- Nodes that run before each other have one call id. -/
theorem ToolNode.callId_eq_of_runsBefore
    {left right : ToolNode}
    (hLeft : left.runsBefore right)
    (hRight : right.runsBefore left) :
    left.callId = right.callId := by
  unfold ToolNode.runsBefore at hLeft hRight
  rcases hLeft with hLess | ⟨hSame, hLess | ⟨hTie, hId⟩⟩
  · omega
  · omega
  · rcases hRight with hLess | ⟨_, hLess | ⟨_, hId'⟩⟩
    · omega
    · omega
    · exact String.le_antisymm hId hId'

instance : Std.Total ToolNode.runsBefore where
  total := ToolNode.runsBefore_total

instance : IsTrans ToolNode ToolNode.runsBefore where
  trans _ _ _ := ToolNode.runsBefore_trans

theorem mem_readyNodes :
    node ∈ readyNodes graph status ↔
      node ∈ graph.nodes ∧ node.isReady status = true := by
  unfold readyNodes
  rw [List.mem_insertionSort, List.mem_filter]

/- The ready nodes stand in their scheduling order. -/
theorem readyNodes_pairwise :
    (readyNodes graph status).Pairwise
      ToolNode.runsBefore :=
  List.pairwise_insertionSort _ _

theorem nodup_readyNodes
    (hNodup : (graph.nodes.map (·.callId)).Nodup) :
    ((readyNodes graph status).map (·.callId)).Nodup := by
  unfold readyNodes
  rw [((List.perm_insertionSort ToolNode.runsBefore
    (graph.nodes.filter (ToolNode.isReady status))).map
      (·.callId)).nodup_iff]
  exact hNodup.sublist
    (List.Sublist.map _ List.filter_sublist)

/- Only the terminal part of a status is looked at. -/
theorem isReady_congr
    (hSettled : ∀ callId,
      settled (status callId) = settled (status' callId)) :
    node.isReady status = node.isReady status' := by
  have hSucceeded : ∀ callId,
      (status callId = some .succeeded ↔
        status' callId = some .succeeded) := by
    intro callId
    rw [← settled_succeeded_iff, hSettled,
      settled_succeeded_iff]
  have hTerminal :
      isTerminalStatus (status node.callId) =
        isTerminalStatus (status' node.callId) := by
    rw [Bool.eq_iff_iff, isTerminalStatus_iff,
      isTerminalStatus_iff, hSettled]
  unfold ToolNode.isReady
  rw [hTerminal]
  simp only [hSucceeded]

theorem readyNodes_congr
    (hSettled : ∀ callId,
      settled (status callId) = settled (status' callId)) :
    readyNodes graph status = readyNodes graph status' := by
  have hReady : ToolNode.isReady status =
      ToolNode.isReady status' :=
    funext fun node => isReady_congr hSettled
  unfold readyNodes
  rw [hReady]

/-
  A node that ends without success leaves the ready nodes and
  makes no other node ready.
-/
theorem isReady_settle
    {other : ToolNode}
    {terminal : ToolNodeStatus}
    (hReady : node.isReady status = true)
    (hFailed : terminal ≠ .succeeded)
    (hSettled : ∀ callId, settled (status' callId) =
      if callId = node.callId then some terminal
      else settled (status callId)) :
    other.isReady status' =
      (other.isReady status &&
        decide (other.callId ≠ node.callId)) := by
  have hOpen : settled (status node.callId) = none := by
    unfold ToolNode.isReady at hReady
    rw [Bool.and_eq_true, Bool.not_eq_true',
      ← Bool.not_eq_true, isTerminalStatus_iff,
      not_not] at hReady
    exact hReady.1
  have hSucceeded : ∀ callId,
      (status' callId = some .succeeded ↔
        status callId = some .succeeded) := by
    intro callId
    rw [← settled_succeeded_iff, hSettled,
      ← @settled_succeeded_iff (status callId)]
    split
    · rename_i hSame
      rw [hSame, hOpen]
      simp [hFailed]
    · rfl
  have hClosed :
      isTerminalStatus (status' other.callId) =
        (isTerminalStatus (status other.callId) ||
          decide (other.callId = node.callId)) := by
    rw [Bool.eq_iff_iff, Bool.or_eq_true,
      isTerminalStatus_iff, isTerminalStatus_iff, hSettled]
    by_cases hSame : other.callId = node.callId
    · simp [hSame]
    · simp [hSame]
  unfold ToolNode.isReady
  rw [hClosed]
  simp only [hSucceeded, Bool.not_or, decide_not]
  rw [Bool.and_right_comm]

theorem readyNodes_settle
    {terminal : ToolNodeStatus}
    (hNodup : (graph.nodes.map (·.callId)).Nodup)
    (hReady : node.isReady status = true)
    (hFailed : terminal ≠ .succeeded)
    (hSettled : ∀ callId, settled (status' callId) =
      if callId = node.callId then some terminal
      else settled (status callId)) :
    readyNodes graph status' =
      (readyNodes graph status).filter
        fun other => other.callId ≠ node.callId := by
  refine List.Perm.eq_of_pairwise ?_ readyNodes_pairwise
    (readyNodes_pairwise.filter _) ?_
  · intro left right hLeft hRight hBefore hAfter
    have hId : left.callId = right.callId :=
      ToolNode.callId_eq_of_runsBefore hBefore hAfter
    exact List.inj_on_of_nodup_map hNodup
      (mem_readyNodes.mp hLeft).1
      (mem_readyNodes.mp (List.mem_filter.mp hRight).1).1 hId
  · have hFilter :
        graph.nodes.filter (ToolNode.isReady status') =
          (graph.nodes.filter (ToolNode.isReady status)).filter
            fun other => other.callId ≠ node.callId := by
      rw [List.filter_filter]
      apply List.filter_congr
      intro other _
      rw [isReady_settle hReady hFailed hSettled,
        Bool.and_comm]
    unfold readyNodes
    rw [hFilter]
    exact (List.perm_insertionSort _ _).trans
      ((List.perm_insertionSort _ _).symm.filter _)

end Order

------------------------------------------------------------
-- Starting In Order
------------------------------------------------------------

/- The statuses of a graph after the appended records. -/
def statusesAfter
    (context : AgentContext)
    (graph : ToolExecutionGraph)
    (added : List SessionRecord) :
    StatusMap :=
  newestStatus graph.graphId (context.records ++ added)

/- The nodes started in the records and not decided since. -/
def inFlight
    (graph : ToolExecutionGraph)
    (added : List SessionRecord) :
    List ToolNode :=
  graph.nodes.filter fun node =>
    newestStatus graph.graphId added node.callId =
      some .started

/-
  The node is the first ready one after those in flight, in
  the order of priority, provider order and call id, and all
  its dependencies have succeeded. When calls run one at a
  time it is the first ready node.
-/
structure GreedyStart
    (context : AgentContext)
    (graph : ToolExecutionGraph)
    (added : List SessionRecord)
    (node : ToolNode) : Prop where
  first :
    ∃ started later,
      readyNodes graph (statusesAfter context graph added) =
          started ++ node :: later ∧
        started.Perm (inFlight graph added)
  ordered :
    (readyNodes graph
      (statusesAfter context graph added)).Pairwise
        ToolNode.runsBefore
  supplied :
    ∀ dependency ∈ node.dependencies,
      statusesAfter context graph added dependency.callId =
        some .succeeded
  serial :
    context.metadata.policy.maxParallelSkillCalls ≤ 1 →
      (readyNodes graph
        (statusesAfter context graph added)).head? =
          some node

/- No more nodes are in flight than may run at a time. -/
def WithinLimit
    (context : AgentContext)
    (graph : ToolExecutionGraph)
    (added : List SessionRecord) :
    Prop :=
  (inFlight graph added).length ≤
    max 1 context.metadata.policy.maxParallelSkillCalls

/- A request that starts nodes in order and within limits. -/
def InOrder
    (context : AgentContext)
    (graph : ToolExecutionGraph)
    (added : List SessionRecord)
    (op : Op) :
    Prop :=
  ∀ record, op = .append record →
    WithinLimit context graph (added ++ [record]) ∧
      ∀ checkpoint, record = .toolNodeCheckpoint checkpoint →
        checkpoint.graphId = graph.graphId →
          checkpoint.status = .started →
            ∃ node ∈ graph.nodes,
              node.callId = checkpoint.callId ∧
                GreedyStart context graph added node

section Records

variable {context : AgentContext}
variable {graph : ToolExecutionGraph}
variable {added : List SessionRecord}
variable {checkpoint : ToolNodeCheckpointRecord}

theorem statusesAfter_append
    (record : SessionRecord)
    (callId : String) :
    statusesAfter context graph (added ++ [record]) callId =
      (checkpointStatus graph.graphId callId record).or
        (statusesAfter context graph added callId) := by
  unfold statusesAfter
  rw [← List.append_assoc, newestStatus_append]

/- A checkpoint of the graph sets the status of its call. -/
theorem checkpointStatus_own
    (hGraph : checkpoint.graphId = graph.graphId)
    (callId : String) :
    checkpointStatus graph.graphId callId
        (.toolNodeCheckpoint checkpoint) =
      if callId = checkpoint.callId then
        some checkpoint.status
      else none := by
  by_cases hCall : checkpoint.callId = callId
  · simp [checkpointStatus, hGraph, hCall]
  · have hOther : ¬callId = checkpoint.callId :=
      fun h => hCall h.symm
    simp [checkpointStatus, hCall, hOther]

/- A record that is no checkpoint sets no status. -/
theorem checkpointStatus_other
    {record : SessionRecord}
    (hOther : record.asToolNodeCheckpoint = none)
    (callId : String) :
    checkpointStatus graph.graphId callId record = none := by
  cases record with
  | toolNodeCheckpoint checkpoint => cases hOther
  | _ => rfl

theorem mem_inFlight
    {node : ToolNode} :
    node ∈ inFlight graph added ↔ node ∈ graph.nodes ∧
      newestStatus graph.graphId added node.callId =
        some .started := by
  unfold inFlight
  rw [List.mem_filter, decide_eq_true_eq]

/- Records that decide no call keep the ready nodes. -/
theorem settled_statusesAfter_append
    {record : SessionRecord}
    {callId : String}
    (hKeeps : ∀ status,
      checkpointStatus graph.graphId callId record =
          some status →
        settled (some status) =
          settled (statusesAfter context graph added callId)) :
    settled
        (statusesAfter context graph (added ++ [record])
          callId) =
      settled (statusesAfter context graph added callId) := by
  rw [statusesAfter_append]
  cases hStatus :
      checkpointStatus graph.graphId callId record with
  | none => rfl
  | some status => exact hKeeps status hStatus

end Records

------------------------------------------------------------
-- The Phases Of A Round
------------------------------------------------------------

/- A task reports on a call, or a task has panicked. -/
def Reports (tasks : List ToolTask) (callId : String) : Prop :=
  (∃ result, .ok result ∈ tasks ∧ result.callId = callId) ∨
    ∃ joinError, .error joinError ∈ tasks

/-
  A wave while it is prepared. The started nodes are in flight
  and, with the waiting ones, the first ready nodes.
-/
structure Wave
    (context : AgentContext)
    (graph : ToolExecutionGraph)
    (status : StatusMap)
    (started waiting : List ToolNode)
    (added : List SessionRecord) : Prop where
  reflects :
    ∀ callId, settled (status callId) =
      settled (statusesAfter context graph added callId)
  ready :
    ∃ later,
      readyNodes graph (statusesAfter context graph added) =
        started ++ (waiting ++ later)
  flying :
    ∀ node ∈ graph.nodes,
      newestStatus graph.graphId added node.callId =
          some .started ↔
        node ∈ started
  limited :
    started.length + waiting.length ≤
      maxParallel context.metadata.policy

/- A wave whose tasks are joined, down to none in flight. -/
structure Landing
    (context : AgentContext)
    (graph : ToolExecutionGraph)
    (status : StatusMap)
    (tasks : List ToolTask)
    (added : List SessionRecord) : Prop where
  reflects :
    ∀ callId, settled (status callId) =
      settled (statusesAfter context graph added callId)
  limited : WithinLimit context graph added
  reported :
    ∀ node ∈ inFlight graph added,
      Reports tasks node.callId

section Phases

variable {engine : AgentEngine}
variable {context : AgentContext}
variable {graph : ToolExecutionGraph}
variable {status : StatusMap}
variable {started waiting : List ToolNode}
variable {node : ToolNode}
variable {tasks : List ToolTask}
variable {added : List SessionRecord}
variable {checkpoint : ToolNodeCheckpointRecord}

theorem maxParallel_le (policy : EnginePolicy) :
    maxParallel policy ≤
      max 1 policy.maxParallelSkillCalls := by
  unfold maxParallel
  have hLeft := Nat.min_le_left
    (policy.maxParallelSkillCalls.max 1)
    (policy.maxReadyToolNodes.max 1)
  have hComm := Nat.max_comm policy.maxParallelSkillCalls 1
  exact hLeft.trans (Nat.le_of_eq hComm)

theorem nodup_inFlight
    (hNodup : (graph.nodes.map (·.callId)).Nodup) :
    (inFlight graph added).Nodup :=
  (List.Nodup.of_map _ hNodup).filter _

namespace Wave

variable (hWave :
  Wave context graph status started waiting added)

include hWave

theorem nodup
    (hNodup : (graph.nodes.map (·.callId)).Nodup) :
    ((started ++ waiting).map (·.callId)).Nodup := by
  rcases hWave.ready with ⟨later, hReady⟩
  have hAll :
      ((readyNodes graph
        (statusesAfter context graph added)).map
          (·.callId)).Nodup :=
    nodup_readyNodes hNodup
  rw [hReady, ← List.append_assoc] at hAll
  exact hAll.sublist
    ((List.sublist_append_left _ _).map _)

theorem mem_ready
    (hNode : node ∈ started ++ waiting) :
    node ∈ graph.nodes ∧
      node.isReady (statusesAfter context graph added) =
        true := by
  rcases hWave.ready with ⟨later, hReady⟩
  rw [← mem_readyNodes, hReady, ← List.append_assoc]
  exact List.mem_append_left _ hNode

theorem perm_inFlight
    (hNodup : (graph.nodes.map (·.callId)).Nodup) :
    started.Perm (inFlight graph added) := by
  have hStarted : started.Nodup := by
    have hAll := hWave.nodup hNodup
    rw [List.map_append] at hAll
    exact (List.Nodup.of_map _
      (hAll.sublist (List.sublist_append_left _ _)))
  rw [List.perm_ext_iff_of_nodup hStarted
    (nodup_inFlight hNodup)]
  intro other
  rw [mem_inFlight]
  constructor
  · intro hMem
    have hNode := (hWave.mem_ready
      (List.mem_append_left _ hMem)).1
    exact ⟨hNode, (hWave.flying other hNode).mpr hMem⟩
  · rintro ⟨hNode, hStatus⟩
    exact (hWave.flying other hNode).mp hStatus

theorem withinLimit
    (hNodup : (graph.nodes.map (·.callId)).Nodup) :
    WithinLimit context graph added := by
  unfold WithinLimit
  rw [← (hWave.perm_inFlight hNodup).length_eq]
  have hLimited := hWave.limited
  have hMax := maxParallel_le context.metadata.policy
  omega

/- A record that is no checkpoint does not touch a wave. -/
theorem other
    {record : SessionRecord}
    (hOther : record.asToolNodeCheckpoint = none) :
    Wave context graph status started waiting
      (added ++ [record]) := by
  have hStatuses :
      statusesAfter context graph (added ++ [record]) =
        statusesAfter context graph added := by
    funext callId
    rw [statusesAfter_append, checkpointStatus_other hOther]
    rfl
  constructor
  · rw [hStatuses]
    exact hWave.reflects
  · rw [hStatuses]
    exact hWave.ready
  · intro node hNode
    rw [newestStatus_append, checkpointStatus_other hOther]
    exact hWave.flying node hNode
  · exact hWave.limited

end Wave

/- The node of a wave that is prepared next. -/
section Head

variable {rest : List ToolNode}
variable (hNodup : (graph.nodes.map (·.callId)).Nodup)
variable (hWave :
  Wave context graph status started (node :: rest) added)

include hNodup hWave

theorem Wave.head_fresh :
    ∀ other ∈ started ++ rest,
      other.callId ≠ node.callId := by
  have hIds := hWave.nodup hNodup
  rw [List.map_append, List.map_cons,
    List.nodup_middle, List.nodup_cons,
    ← List.map_append] at hIds
  intro other hMem hSame
  exact hIds.1 (hSame ▸ List.mem_map_of_mem hMem)

omit hNodup in
theorem Wave.head_open :
    settled (statusesAfter context graph added node.callId) =
      none := by
  have hReady := (hWave.mem_ready
    (List.mem_append_right _ (List.mem_cons_self))).2
  unfold ToolNode.isReady at hReady
  rw [Bool.and_eq_true, Bool.not_eq_true',
    ← Bool.not_eq_true, isTerminalStatus_iff,
    not_not] at hReady
  exact hReady.1

/- The head starts as the first ready node not in flight. -/
theorem Wave.greedyStart :
    GreedyStart context graph added node := by
  have hHead := hWave.mem_ready
    (List.mem_append_right _ (List.mem_cons_self))
  rcases hWave.ready with ⟨later, hReady⟩
  refine
    { first := ⟨started, rest ++ later, ?_,
        hWave.perm_inFlight hNodup⟩
      ordered := readyNodes_pairwise
      supplied := ?_
      serial := ?_ }
  · rw [hReady]
    rfl
  · intro dependency hMem
    have hIsReady := hHead.2
    unfold ToolNode.isReady at hIsReady
    rw [Bool.and_eq_true, List.all_eq_true] at hIsReady
    simpa using hIsReady.2 dependency hMem
  · intro hSerial
    have hLimited := hWave.limited
    have hMax := maxParallel_le context.metadata.policy
    rw [List.length_cons] at hLimited
    have hNone : started = [] :=
      List.length_eq_zero_iff.mp (by omega)
    rw [hReady, hNone]
    rfl

omit hNodup in
/- A checkpoint of the head that does not decide it. -/
theorem Wave.undecided
    (hGraph : checkpoint.graphId = graph.graphId)
    (hCall : checkpoint.callId = node.callId)
    (hOpen : checkpoint.status.isTerminal = false) :
    (∀ callId,
      settled
          (statusesAfter context graph
            (added ++ [.toolNodeCheckpoint checkpoint])
            callId) =
        settled (statusesAfter context graph added callId)) ∧
      ∀ other ∈ graph.nodes,
        (newestStatus graph.graphId
            (added ++ [.toolNodeCheckpoint checkpoint])
            other.callId = some .started ↔
          if other.callId = node.callId then
            checkpoint.status = .started
          else other ∈ started) := by
  constructor
  · intro callId
    apply settled_statusesAfter_append
    intro newest hNewest
    rw [checkpointStatus_own hGraph] at hNewest
    split at hNewest
    · rename_i hSame
      cases hNewest
      rw [hSame, hCall, hWave.head_open]
      simp [settled, Option.filter, hOpen]
    · cases hNewest
  · intro other hOther
    rw [newestStatus_append, checkpointStatus_own hGraph,
      hCall]
    by_cases hSame : other.callId = node.callId
    · rw [if_pos hSame, if_pos hSame]
      simp
    · rw [if_neg hSame, if_neg hSame]
      exact hWave.flying other hOther

theorem Wave.validate
    (hGraph : checkpoint.graphId = graph.graphId)
    (hCall : checkpoint.callId = node.callId)
    (hStatus : checkpoint.status = .validated) :
    Wave context graph status started (node :: rest)
      (added ++ [.toolNodeCheckpoint checkpoint]) := by
  rcases hWave.undecided hGraph hCall
    (by rw [hStatus]; rfl) with ⟨hSettled, hFlying⟩
  constructor
  · intro callId
    rw [hSettled]
    exact hWave.reflects callId
  · rw [readyNodes_congr hSettled]
    exact hWave.ready
  · intro other hOther
    rw [hFlying other hOther, hStatus]
    by_cases hSame : other.callId = node.callId
    · rw [if_pos hSame]
      constructor
      · nofun
      · intro hMem
        exact absurd hSame (hWave.head_fresh hNodup other
          (List.mem_append_left _ hMem))
    · rw [if_neg hSame]
  · exact hWave.limited

theorem Wave.start
    (hGraph : checkpoint.graphId = graph.graphId)
    (hCall : checkpoint.callId = node.callId)
    (hStatus : checkpoint.status = .started) :
    Wave context graph status (started ++ [node]) rest
      (added ++ [.toolNodeCheckpoint checkpoint]) := by
  have hHead := hWave.mem_ready
    (List.mem_append_right _ (List.mem_cons_self))
  rcases hWave.undecided hGraph hCall
    (by rw [hStatus]; rfl) with ⟨hSettled, hFlying⟩
  constructor
  · intro callId
    rw [hSettled]
    exact hWave.reflects callId
  · rcases hWave.ready with ⟨later, hReady⟩
    rw [readyNodes_congr hSettled]
    exact ⟨later, by rw [hReady]; simp⟩
  · intro other hOther
    rw [hFlying other hOther, hStatus, List.mem_append,
      List.mem_singleton]
    by_cases hSame : other.callId = node.callId
    · have hEq := List.inj_on_of_nodup_map hNodup hOther
        hHead.1 hSame
      simp [hEq]
    · have hNe : other ≠ node :=
        fun hEq => hSame (by rw [hEq])
      simp [hSame, hNe]
  · have hLimited := hWave.limited
    rw [List.length_cons] at hLimited
    rw [List.length_append, List.length_singleton]
    omega

theorem Wave.fail
    (hGraph : checkpoint.graphId = graph.graphId)
    (hCall : checkpoint.callId = node.callId)
    (hStatus : checkpoint.status = .failed) :
    Wave context graph
      (Function.update status node.callId (some .failed))
      started rest
      (added ++ [.toolNodeCheckpoint checkpoint]) := by
  have hHead := hWave.mem_ready
    (List.mem_append_right _ (List.mem_cons_self))
  have hFresh := hWave.head_fresh hNodup
  have hSettled : ∀ callId,
      settled
          (statusesAfter context graph
            (added ++ [.toolNodeCheckpoint checkpoint])
            callId) =
        if callId = node.callId then some .failed
        else
          settled
            (statusesAfter context graph added callId) := by
    intro callId
    rw [statusesAfter_append, checkpointStatus_own hGraph,
      hCall, hStatus]
    split <;> rfl
  constructor
  · intro callId
    rw [hSettled]
    by_cases hSame : callId = node.callId
    · rw [hSame, Function.update_self, if_pos rfl]
      rfl
    · rw [Function.update_of_ne hSame, if_neg hSame]
      exact hWave.reflects callId
  · rcases hWave.ready with ⟨later, hReady⟩
    have hIds :
        ((started ++ node :: (rest ++ later)).map
          (·.callId)).Nodup := by
      have hAll :
          ((readyNodes graph
            (statusesAfter context graph added)).map
              (·.callId)).Nodup :=
        nodup_readyNodes hNodup
      rw [hReady] at hAll
      exact hAll
    rw [List.map_append, List.map_cons, List.nodup_middle,
      List.nodup_cons, ← List.map_append] at hIds
    have hKept : ∀ other ∈ started ++ (rest ++ later),
        decide (other.callId ≠ node.callId) = true := by
      intro other hMem
      rw [decide_eq_true_eq]
      intro hSame
      exact hIds.1 (hSame ▸ List.mem_map_of_mem hMem)
    have hFailed : ToolNodeStatus.failed ≠ .succeeded := by
      decide
    refine ⟨later, ?_⟩
    rw [readyNodes_settle hNodup hHead.2 hFailed hSettled,
      hReady, List.cons_append, List.filter_append,
      List.filter_cons_of_neg (by simp),
      ← List.filter_append, List.filter_eq_self.mpr hKept]
  · intro other hOther
    rw [newestStatus_append, checkpointStatus_own hGraph,
      hCall, hStatus]
    by_cases hSame : other.callId = node.callId
    · rw [if_pos hSame]
      constructor
      · nofun
      · intro hMem
        exact absurd hSame
          (hFresh other (List.mem_append_left _ hMem))
    · rw [if_neg hSame]
      exact hWave.flying other hOther
  · have hLimited := hWave.limited
    rw [List.length_cons] at hLimited
    omega

omit hWave in
/- Preparing the head keeps the wave, and starts in order. -/
theorem Wave.prepares :
    PreparesAs (InOrder context graph) graph node
      (Wave context graph status started (node :: rest))
      (Wave context graph status (started ++ [node]) rest)
      (Wave context graph
        (Function.update status node.callId (some .failed))
        started rest) := by
  constructor
  · intro added _ record hOp
    cases hOp
  · intro added record hWave
    have hNext : Wave context graph status started
        (node :: rest)
        (added ++ [.skillInputValidation record]) :=
      hWave.other rfl
    refine ⟨?_, hNext⟩
    rintro _ ⟨⟩
    exact ⟨hNext.withinLimit hNodup, nofun⟩
  · intro added checkpoint hWave hGraph hCall hStatus
    have hNext := hWave.validate hNodup hGraph hCall hStatus
    refine ⟨?_, hNext⟩
    rintro _ ⟨⟩
    refine ⟨hNext.withinLimit hNodup, ?_⟩
    rintro _ ⟨⟩ _ hStarted
    rw [hStatus] at hStarted
    cases hStarted
  · intro added checkpoint hWave hGraph hCall hStatus
    have hNext := hWave.start hNodup hGraph hCall hStatus
    refine ⟨?_, hNext⟩
    rintro _ ⟨⟩
    refine ⟨hNext.withinLimit hNodup, ?_⟩
    rintro _ ⟨⟩ _ _
    exact ⟨node, (hWave.mem_ready (List.mem_append_right _
      List.mem_cons_self)).1, hCall.symm,
      hWave.greedyStart hNodup⟩
  · intro added record hWave
    have hNext : Wave context graph status
        (started ++ [node]) rest
        (added ++ [.toolCall record]) :=
      hWave.other rfl
    refine ⟨?_, hNext⟩
    rintro _ ⟨⟩
    exact ⟨hNext.withinLimit hNodup, nofun⟩
  · intro added checkpoint hWave hGraph hCall hStatus
    have hNext := hWave.fail hNodup hGraph hCall hStatus
    refine ⟨?_, hNext⟩
    rintro _ ⟨⟩
    refine ⟨hNext.withinLimit hNodup, ?_⟩
    rintro _ ⟨⟩ _ hStarted
    rw [hStatus] at hStarted
    cases hStarted

end Head

/- A task of a prepared call leaves the journal as it is. -/
theorem runPreparedCall_inOrder
    {prepared : PreparedCall}
    (hPrepared : PreparedFor engine context node prepared) :
    Safe journal (InOrder context graph)
      (fun task added' => added' = added ∧
        Reports [task] node.callId)
      (fun _ _ => True) (runPreparedCall prepared) added := by
  have hQuiet : ∀ op : Op, op.Silent →
      ∀ a added, journal.next added op a = added := by
    intro op hSilent a added
    cases op with
    | append record => exact hSilent.elim
    | _ => exact List.append_nil added
  refine Safe.mono (fun _ _ h => h) ?_ (fun _ _ _ => trivial)
    (Uses.safe (I := fun added' => added' = added)
      (uses_runPreparedCall (S := Op.Silent) hPrepared trivial
        fun _ => trivial) ?_ ?_ rfl)
  · rintro task added' ⟨hTask, hSame⟩
    refine ⟨hSame, ?_⟩
    cases task with
    | error joinError =>
        exact .inr ⟨joinError, List.mem_singleton_self _⟩
    | ok result =>
        exact .inl ⟨result, List.mem_singleton_self _,
          (hTask result rfl).callId⟩
  · intro added' op _ hSilent record hOp
    rw [hOp] at hSilent
    exact hSilent.elim
  · intro added' op a hSame hSilent _
    rw [hQuiet op hSilent, hSame]

theorem Reports.mono
    {tasks' : List ToolTask}
    {callId : String}
    (hReports : Reports tasks callId)
    (hTasks : ∀ task ∈ tasks, task ∈ tasks') :
    Reports tasks' callId := by
  rcases hReports with ⟨result, hMem, hId⟩ | ⟨e, hMem⟩
  · exact .inl ⟨result, hTasks _ hMem, hId⟩
  · exact .inr ⟨e, hTasks _ hMem⟩

/- A wave starts its nodes in order, within the limit. -/
theorem prepareWave_inOrder
    {step : Nat}
    {state : BatchState}
    (hNodup : (graph.nodes.map (·.callId)).Nodup)
    (hWave : Wave context graph state.status started waiting
      added)
    (hReports : ∀ node ∈ started,
      Reports tasks node.callId) :
    Safe journal (InOrder context graph)
      (fun next added' => ∃ started',
        Wave context graph next.1.status started' []
            added' ∧
          ∀ node ∈ started', Reports next.2 node.callId)
      (fun _ _ => True)
      (prepareWave engine context graph step waiting state
        tasks) added := by
  induction waiting generalizing state started tasks added with
  | nil => exact ⟨started, hWave, hReports⟩
  | cons node rest ih =>
      have hNode := (hWave.mem_ready
        (List.mem_append_right _ List.mem_cons_self)).1
      have hPrepares :
          PreparesAs (InOrder context graph) graph node
            (Wave context graph state.status started
              (node :: rest))
            (Wave context graph state.status
              (started ++ [node]) rest)
            (Wave context graph
              (Function.update state.status node.callId
                (some .failed)) started rest) :=
        Wave.prepares hNodup
      unfold prepareWave
      refine Safe.bind (Safe.mono (fun _ _ h => h.1)
        (fun _ _ h => h) (fun _ _ h => h)
        ((hPrepares.prepareNode hWave).and_uses
          (uses_prepareNode hNode))) ?_
      rintro ⟨prepared, attempts⟩ added' ⟨hNext, hFor⟩
      cases hFor with
      | @executable call hCall =>
          refine Safe.bind (runPreparedCall_inOrder hCall) ?_
          rintro task added'' ⟨hSame, hTask⟩
          subst hSame
          have hWait : Wave context graph
              ({ state with attempts := attempts } :
                BatchState).status
              (started ++ [node]) rest added'' := hNext
          apply ih hWait
          intro other hMem
          rcases List.mem_append.mp hMem with hOld | hLast
          · exact (hReports other hOld).mono
              fun t h => List.mem_append_left _ h
          · rw [List.mem_singleton] at hLast
            subst hLast
            exact hTask.mono
              fun t h => List.mem_append_right _ h
      | @immediate kind message hKind _ =>
          have hFinal :
              finalStatusForResult (errorResult node.callId
                node.skillName kind message) = .failed :=
            finalStatusForResult_errorResult hKind
          refine ih ?_ hReports
          change Wave context graph
            (Function.update state.status node.callId
              (some (finalStatusForResult (errorResult
                node.callId node.skillName kind message))))
            started rest added'
          rw [hFinal]
          exact hNext

/- Without tasks to join, no node is in flight. -/
theorem Landing.none_started
    (hLanding : Landing context graph status [] added)
    (hNode : node ∈ graph.nodes) :
    newestStatus graph.graphId added node.callId ≠
      some .started := by
  intro hStarted
  rcases hLanding.reported node
    (mem_inFlight.mpr ⟨hNode, hStarted⟩) with
      ⟨result, hMem, _⟩ | ⟨joinError, hMem⟩
  · cases hMem
  · cases hMem

/- A decided call is not in flight any more. -/
theorem Landing.decide
    {tasks' : List ToolTask}
    (hLanding : Landing context graph status tasks added)
    (hGraph : checkpoint.graphId = graph.graphId)
    (hTerminal : checkpoint.status.isTerminal = true)
    (hTasks : ∀ callId, callId ≠ checkpoint.callId →
      Reports tasks callId → Reports tasks' callId) :
    Landing context graph
      (Function.update status checkpoint.callId
        (some checkpoint.status))
      tasks' (added ++ [.toolNodeCheckpoint checkpoint]) := by
  have hFlying : ∀ other,
      newestStatus graph.graphId
          (added ++ [.toolNodeCheckpoint checkpoint])
          other = some .started →
        other ≠ checkpoint.callId ∧
          newestStatus graph.graphId added other =
            some .started := by
    intro other hStarted
    rw [newestStatus_append, checkpointStatus_own hGraph]
      at hStarted
    by_cases hSame : other = checkpoint.callId
    · rw [if_pos hSame] at hStarted
      have hStatus : checkpoint.status = .started :=
        Option.some.inj hStarted
      rw [hStatus] at hTerminal
      cases hTerminal
    · rw [if_neg hSame] at hStarted
      exact ⟨hSame, hStarted⟩
  constructor
  · intro callId
    rw [statusesAfter_append, checkpointStatus_own hGraph]
    by_cases hSame : callId = checkpoint.callId
    · rw [hSame, Function.update_self, if_pos rfl]
      rfl
    · rw [Function.update_of_ne hSame, if_neg hSame]
      exact hLanding.reflects callId
  · have hFewer :
        (inFlight graph
          (added ++ [.toolNodeCheckpoint checkpoint])).length ≤
            (inFlight graph added).length := by
      unfold inFlight
      apply List.Sublist.length_le
      apply List.monotone_filter_right
      intro other hStarted
      rw [decide_eq_true_eq] at hStarted ⊢
      exact (hFlying _ hStarted).2
    exact hFewer.trans hLanding.limited
  · intro other hMem
    rw [mem_inFlight] at hMem
    have hOpen := hFlying _ hMem.2
    exact hTasks _ hOpen.1 (hLanding.reported other
      (mem_inFlight.mpr ⟨hMem.1, hOpen.2⟩))

/- A checkpoint that decides a call is in order. -/
theorem Landing.inOrder
    (hLanding : Landing context graph status tasks
      (added ++ [.toolNodeCheckpoint checkpoint]))
    (hTerminal : checkpoint.status.isTerminal = true) :
    InOrder context graph added
      (.append (.toolNodeCheckpoint checkpoint)) := by
  rintro _ ⟨⟩
  refine ⟨hLanding.limited, ?_⟩
  rintro _ ⟨⟩ _ hStarted
  rw [hStarted] at hTerminal
  cases hTerminal

theorem inOrder_newUuid :
    InOrder context graph added .newUuid := by
  rintro _ ⟨⟩

/- Joining the tasks of a wave decides its calls. -/
theorem joinTasks_inOrder
    {state : BatchState}
    (hLanding :
      Landing context graph state.status tasks added) :
    Safe journal (InOrder context graph)
      (fun next added' =>
        Landing context graph next.status [] added')
      (fun _ _ => True) (joinTasks graph tasks state)
      added := by
  induction tasks generalizing state added with
  | nil => exact hLanding
  | cons task rest ih =>
      cases task with
      | error joinError => trivial
      | ok result =>
          have hRest : ∀ callId, callId ≠ result.callId →
              Reports (.ok result :: rest) callId →
                Reports rest callId := by
            intro callId hOther hReports
            rcases hReports with ⟨other, hMem, hId⟩ | ⟨e, hMem⟩
            · rcases List.mem_cons.mp hMem with hEq | hMem
              · cases hEq
                exact absurd hId.symm hOther
              · exact .inl ⟨other, hMem, hId⟩
            · rcases List.mem_cons.mp hMem with hEq | hMem
              · cases hEq
              · exact .inr ⟨e, hMem⟩
          unfold joinTasks
          split
          · rename_i hNone
            apply ih
            refine ⟨hLanding.reflects, hLanding.limited, ?_⟩
            intro other hMem
            apply hRest _ _ (hLanding.reported other hMem)
            have hNotFound := List.find?_eq_none.mp hNone
              other (mem_inFlight.mp hMem).1
            simpa using hNotFound
          · rename_i node hFound
            have hSame : node.callId = result.callId := by
              simpa using List.find?_some hFound
            rw [Safe.bind_iff]
            apply journal_checkpoint inOrder_newUuid
              (fun _ => trivial)
            intro checkpoint hGraph hCall _ hStatus
            have hTerminal :
                checkpoint.status.isTerminal = true := by
              rw [hStatus]
              exact finalStatusForResult_isTerminal result
            have hNext := hLanding.decide hGraph hTerminal
              (by rw [hCall, hSame]; exact hRest)
            refine ⟨hNext.inOrder hTerminal, ih ?_⟩
            rw [hCall, hStatus] at hNext
            exact hNext

/- Skipping keeps a settled batch settled. -/
theorem skipBlockedNodes_inOrder
    {nodes : List ToolNode}
    {state : BatchState}
    {changed : Bool}
    (hLanding :
      Landing context graph state.status [] added) :
    Safe journal (InOrder context graph)
      (fun next added' =>
        Landing context graph next.1.status [] added')
      (fun _ _ => True)
      (skipBlockedNodes graph nodes state changed) added := by
  induction nodes generalizing state changed added with
  | nil => exact hLanding
  | cons node rest ih =>
      unfold skipBlockedNodes
      split
      · exact ih hLanding
      · split
        · exact ih hLanding
        · rw [Safe.bind_iff]
          apply journal_checkpoint inOrder_newUuid
            (fun _ => trivial)
          intro checkpoint hGraph hCall _ hStatus
          have hTerminal :
              checkpoint.status.isTerminal = true := by
            rw [hStatus]
            rfl
          have hNext := hLanding.decide hGraph hTerminal
            fun _ _ h => h
          refine ⟨hNext.inOrder hTerminal, ih ?_⟩
          rw [hCall, hStatus] at hNext
          exact hNext

/- The first ready nodes of a settled batch make a wave. -/
theorem Landing.wave
    (hLanding : Landing context graph status [] added) :
    Wave context graph status []
      ((nextWave context.metadata.policy graph status).take
        (maxParallel context.metadata.policy)) added := by
  constructor
  · exact hLanding.reflects
  · unfold nextWave
    rw [List.take_take,
      ← readyNodes_congr hLanding.reflects]
    exact ⟨_, (List.take_append_drop _ _).symm⟩
  · intro node hNode
    simp only [List.not_mem_nil, iff_false]
    exact hLanding.none_started hNode
  · rw [List.length_nil, Nat.zero_add]
    exact List.length_take_le _ _

/- The started nodes of a wave are those its tasks report. -/
theorem Wave.landing
    (hNodup : (graph.nodes.map (·.callId)).Nodup)
    (hWave :
      Wave context graph status started waiting added)
    (hReports : ∀ node ∈ started,
      Reports tasks node.callId) :
    Landing context graph status tasks added := by
  refine ⟨hWave.reflects, hWave.withinLimit hNodup, ?_⟩
  intro node hMem
  exact hReports node
    ((hWave.perm_inFlight hNodup).mem_iff.mpr hMem)

/- Every wave of the loop starts its nodes in order. -/
theorem runGraph_inOrder
    {step fuel : Nat}
    {state : BatchState}
    (hNodup : (graph.nodes.map (·.callId)).Nodup)
    (hLanding :
      Landing context graph state.status [] added) :
    Safe journal (InOrder context graph)
      (fun final added' =>
        Landing context graph final.status [] added')
      (fun _ _ => True)
      (runGraph engine context graph step fuel state)
      added := by
  induction fuel generalizing state added with
  | zero =>
      constructor
      · rintro _ ⟨⟩
      · intro answer
        cases answer
  | succ fuel ih =>
      unfold runGraph
      refine Safe.bind (skipBlockedNodes_inOrder hLanding) ?_
      rintro ⟨state', skipped⟩ added' hSettled
      dsimp only
      split
      · split
        · exact ih hSettled
        · exact hSettled
      · refine Safe.bind (prepareWave_inOrder hNodup
          hSettled.wave (by intro _ hMem; cases hMem)) ?_
        rintro ⟨state'', tasks⟩ added''
          ⟨started, hWave, hReports⟩
        have hFlying := hWave.landing hNodup hReports
        rw [Safe.bind_iff]
        refine ⟨by rintro _ ⟨⟩, ?_⟩
        intro finished hPerm
        have hFinished : Landing context graph state''.status
            finished (added'' ++ []) := by
          rw [List.append_nil]
          refine ⟨hFlying.reflects, hFlying.limited, ?_⟩
          intro node hMem
          exact (hFlying.reported node hMem).mono
            fun task h => (List.Perm.mem_iff hPerm).mp h
        refine Safe.bind (joinTasks_inOrder hFinished) ?_
        intro last joined hLast
        exact ih hLast

/- Before anything is appended nothing is in flight. -/
theorem landing_initial :
    Landing context graph
      (latestToolStatuses context graph.graphId) [] [] := by
  have hNone : inFlight graph [] = [] := by
    unfold inFlight
    rw [List.filter_eq_nil_iff]
    intro node _
    simp [newestStatus]
  constructor
  · intro callId
    unfold statusesAfter
    rw [latestToolStatuses_eq, List.append_nil]
  · unfold WithinLimit
    rw [hNone]
    exact Nat.zero_le _
  · rw [hNone]
    nofun

end Phases

end RainEngine
