import RainEngine.Batches.Derivations

/-
  This file says which batches run to completion: the loop
  ends when no node is ready, and a graph stays active until
  every node has a terminal checkpoint. The two agree exactly
  when the dependencies of the batch settle every call.

  Key definitions include:
    * `CompletesBatch`

  Key theorems include:
    * `completesBatch_of_settleable`
    * `completesBatch_iff`
    * `settleable_of_rank`
-/

namespace RainEngine

open Effects
open Dependencies (Settles)

------------------------------------------------------------
-- Completion
------------------------------------------------------------

/-
  The graph of a batch is no longer active: every call has its
  own terminal checkpoint and its own result.
-/
structure CompletesBatch
    (calls : List PlannedSkillCall)
    (graphId : String)
    (w w' : World) : Prop where
  inactive :
    ∀ graph, activeToolExecutionGraph w'.ledger = some graph →
      graph.graphId ≠ graphId
  checkpointed :
    (terminalCheckpointIds graphId w'.ledger).Perm
      (calls.map (·.callId))
  reported :
    ((toolResults (w'.ledger.drop w.ledger.length)).map
      (·.callId)).Perm (calls.map (·.callId))

section Completion

variable {engine : AgentEngine}
variable {context : AgentContext}
variable {graph : ToolExecutionGraph}
variable {step : Nat}
variable {calls : List PlannedSkillCall}
variable {approvalOverride : Bool}
variable {w w' : World}

/-
  A graph with as many terminal checkpoints as nodes, one for
  each call, is no longer active.
-/
theorem Recorded.inactive
    {added : List SessionRecord}
    {results : List ToolResultRecord}
    (hFresh : FreshBatch context step calls w)
    (hNodup : (calls.map (·.callId)).Nodup)
    (hRecorded :
      Recorded (newGraph context step calls) added results
        w w')
    (hCheckpointed :
      (terminalCheckpointIds
        (newGraph context step calls).graphId
        w'.ledger).Perm (calls.map (·.callId))) :
    activeToolExecutionGraph w'.ledger = none := by
  have hCard :
      (terminalCheckpointIds
        (newGraph context step calls).graphId
        w'.ledger).toFinset.card = calls.length := by
    rw [List.toFinset_card_of_nodup
        (hCheckpointed.nodup_iff.mpr hNodup),
      hCheckpointed.length_eq, List.length_map]
  have hNodes :
      (newGraph context step calls).nodes.length =
        calls.length := by
    simp [newGraph]
  rw [hRecorded.active_eq, hRecorded.terminalCallIds_eq hFresh,
    hCard, hNodes, if_neg (Nat.lt_irrefl _)]

/- A batch whose calls settle has a result for each call. -/
theorem BatchReport.results_perm
    {batch : ExecutedBatch}
    (hReport : BatchReport engine context
      (newGraph context step calls) (fun _ => none) w batch)
    (hSettleable : Settleable engine context calls) :
    (batch.results.map (·.callId)).Perm
      (calls.map (·.callId)) := by
  rw [List.perm_ext_iff_of_nodup hReport.nodup
    hSettleable.nodup]
  intro callId
  constructor
  · intro hMem
    rcases List.mem_map.mp hMem with ⟨result, hResult, hId⟩
    rw [← hId, ← newGraph_callIds]
    exact hReport.owned result hResult
  · intro hMem
    rcases (hReport.covers callId).mpr
      ⟨rfl, hReport.settled_of_settleable hSettleable
        callId hMem⟩ with ⟨result, hResult, hId⟩
    exact List.mem_map.mpr ⟨result, hResult, hId⟩

/-
  A fresh batch whose calls all settle is completed, whatever
  the host answers.
-/
theorem completesBatch_of_settleable
    (hRuns : ¬Waits engine calls approvalOverride)
    (hFresh : FreshBatch context step calls w)
    (hSettleable : Settleable engine context calls) :
    Safe host (fun _ _ => True)
      (fun r w' => ∀ batch context',
        r = (.executed batch, .ok context') →
          CompletesBatch calls
            (newGraph context step calls).graphId w w')
      (fun _ _ => True)
      (runBatch engine context step calls approvalOverride)
      w := by
  unfold runBatch
  refine Safe.bind (executePlannedCalls_reports hRuns hFresh
    hSettleable.nodup) ?_
  rintro _ before ⟨batch, hExecuted, hReport, hOnce, hStored⟩
  subst hExecuted
  refine Safe.bind (Safe.mono (fun _ _ _ => trivial)
    (fun _ _ h => h) (fun _ _ _ => trivial)
    recordResults_appends) ?_
  rintro recorded after hLedger batch' context' hEq
  cases hEq
  rcases hStored with ⟨added, hBefore, hKind⟩
  rw [World.append_ledger, List.append_assoc,
    List.singleton_append] at hBefore
  have hRecorded :
      Recorded (newGraph context step calls) added
        batch.results w after := by
    refine ⟨?_, hKind⟩
    rw [hLedger context' rfl, hBefore]
    simp [BatchExecution.results]
  have hSettled := hReport.settled_of_settleable hSettleable
  have hOwned : ∀ result ∈ batch.results,
      result.callId ∈ calls.map (·.callId) := by
    intro result hMem
    rw [← newGraph_callIds]
    exact hReport.owned result hMem
  have hCheckpointed :
      (terminalCheckpointIds
        (newGraph context step calls).graphId
        after.ledger).Perm (calls.map (·.callId)) := by
    rw [hRecorded.terminalCheckpointIds_before hBefore,
      List.perm_ext_iff_of_nodup hOnce hSettleable.nodup]
    intro callId
    rw [mem_terminalCheckpointIds_iff]
    constructor
    · intro hSome
      rcases (hReport.covers callId).mpr ⟨rfl, hSome⟩ with
        ⟨result, hMem, hId⟩
      subst hId
      exact hOwned result hMem
    · exact hSettled callId
  refine
    { inactive := ?_
      checkpointed := hCheckpointed
      reported := ?_ }
  · rw [hRecorded.inactive hFresh hSettleable.nodup
      hCheckpointed]
    nofun
  · rw [hRecorded.toolResults_drop]
    exact hReport.results_perm hSettleable

/- On a calm host the results of a batch are recorded. -/
theorem recordResults_calm
    {C : World → (op : Op) → Answer op → Prop}
    {results : List ToolResultRecord}
    (hCalm : ∀ w op a, C w op a → Calm op a) :
    ReturnsOnly C (fun r => ∃ context', r = .ok context')
      (recordResults results context) w := by
  induction results generalizing context w with
  | nil => exact ⟨context, rfl⟩
  | cons result rest ih =>
      unfold recordResults ReturnsOnly
      rw [Safe.bind_iff]
      exact safe_append_answered
        (fun w op a h => (hCalm w op a h).storeAnswered)
        trivial ih

/- What a calm batch returns is recorded. -/
theorem runBatch_calm
    {C : World → (op : Op) → Answer op → Prop}
    (hCalm : ∀ w op a, C w op a → Calm op a)
    (hRuns : ¬Waits engine calls approvalOverride) :
    ReturnsOnly C
      (fun r => ∃ batch context',
        r = (.executed batch, .ok context'))
      (runBatch engine context step calls approvalOverride)
      w := by
  have hExecuted :
      ReturnsOnly C
        (fun r => ∃ batch, r = BatchExecution.executed batch)
        (executePlannedCalls engine context step calls
          approvalOverride) w :=
    Safe.mono (fun _ _ _ => trivial) (fun _ _ h => h)
      (fun _ _ h => h)
      (executePlannedCalls_calm hCalm hRuns)
  unfold runBatch
  refine hExecuted.bind ?_
  rintro _ w' ⟨batch, hEq⟩
  subst hEq
  refine (recordResults_calm hCalm).bind ?_
  rintro _ w'' ⟨context', hEq⟩
  subst hEq
  exact ⟨batch, context', rfl⟩

/- The loop of a batch ends before its fuel. -/
theorem runBatch_ends
    (hRuns : ¬Waits engine calls approvalOverride) :
    Safe host (fun _ op => op ≠ .outOfFuel)
      (fun _ _ => True) (fun _ _ => True)
      (runBatch engine context step calls approvalOverride)
      w := by
  have hQueue :
      Uses
        (BatchRequest engine context
          (existingOrNewGraph context step calls))
        (fun _ => True)
        (queueNodes (existingOrNewGraph context step calls)
          (existingOrNewGraph context step calls).nodes) :=
    uses_queueNodes fun _ h => h
  have hStore : Safe host (fun _ op => op ≠ .outOfFuel)
      (fun _ _ => True) (fun _ _ => True)
      (storeGraph context
        (existingOrNewGraph context step calls)) w := by
    rw [storeGraph_eq]
    split
    · trivial
    · rw [Safe.bind_iff]
      refine safe_appendOrFail nofun ?_ (fun _ => trivial)
      exact safe_of_batchRequest hQueue
  unfold runBatch
  rw [executePlannedCalls_eq hRuns, Program.bind_assoc]
  refine Safe.bind hStore ?_
  intro _ before _
  rw [Program.bind_assoc]
  refine Safe.bind executeGraph_ends ?_
  intro batch after _
  rw [Program.pure_bind]
  refine Safe.bind (Safe.mono ?_ (fun _ _ _ => trivial)
    (fun _ _ _ => trivial) recordResults_appends)
    (fun _ _ _ => trivial)
  rintro _ _ ⟨result, _, hOp⟩
  subst hOp
  nofun

/- A fresh batch that returns has recorded its results. -/
theorem runBatch_recorded
    (hRuns : ¬Waits engine calls approvalOverride)
    (hFresh : FreshBatch context step calls w) :
    Safe host (fun _ _ => True)
      (fun r w' => ∃ batch, r.1 = .executed batch ∧
        ∀ context', r.2 = .ok context' →
          ∃ added, Recorded (newGraph context step calls) added
            batch.results w w')
      (fun _ _ => True)
      (runBatch engine context step calls approvalOverride)
      w := by
  unfold runBatch
  refine Safe.bind (Safe.mono (fun _ _ _ => trivial)
    (fun _ _ h => h) (fun _ _ _ => trivial)
    (executePlannedCalls_new hRuns hFresh.new)) ?_
  rintro _ before ⟨⟨batch, hEq⟩, added, hBefore, hKind⟩
  subst hEq
  refine Safe.bind (Safe.mono (fun _ _ _ => trivial)
    (fun _ _ h => h) (fun _ _ _ => trivial)
    recordResults_appends) ?_
  intro recorded after hLedger
  refine ⟨batch, rfl, ?_⟩
  intro context' hOk
  refine ⟨added, ?_, hKind⟩
  rw [hLedger context' hOk, hBefore]
  simp [BatchExecution.results]

/- A batch can always be run to its end and recorded. -/
theorem runBatch_happy
    (hRuns : ¬Waits engine calls approvalOverride)
    (hFresh : FreshBatch context step calls w) :
    Safe happy (fun _ op => op ≠ .outOfFuel)
      (fun r w' => ∃ batch context' added,
        r = (.executed batch, .ok context') ∧
        Recorded (newGraph context step calls) added
          batch.results w w')
      (fun _ _ => False)
      (runBatch engine context step calls approvalOverride)
      w := by
  have hReturns :
      ReturnsOnly (fun _ op a => Calm op a ∧ Succeeds op a)
        (fun r => ∃ batch context',
          r = (.executed batch, .ok context'))
        (runBatch engine context step calls approvalOverride)
        w :=
    runBatch_calm (fun _ _ _ h => h.1) hRuns
  refine Safe.mono (fun _ _ h => h.1.1) ?_
    (fun _ _ h => h.2)
    (((runBatch_ends hRuns).restrict.and
      (runBatch_recorded hRuns hFresh).restrict).and hReturns)
  rintro _ w' ⟨⟨_, hRecorded⟩, batch, context', hEq⟩
  subst hEq
  rcases hRecorded with ⟨_, ⟨⟩, hStored⟩
  rcases hStored context' rfl with ⟨added, hAdded⟩
  exact ⟨batch, context', added, rfl, hAdded⟩

theorem idle_storeGraph :
    Uses Op.Idle (fun _ => True)
      (storeGraph context graph) := by
  have hQueue : ∀ nodes,
      Uses Op.Idle (fun _ => True)
        (queueNodes graph nodes) := by
    intro nodes
    induction nodes with
    | nil => trivial
    | cons node rest ih =>
        exact Uses.bind idle_queued fun _ _ => ih
  rw [storeGraph_eq]
  split
  · trivial
  · exact Uses.bind (uses_appendOrFail ⟨id, id⟩ trivial)
      fun _ (_ : True) => hQueue _

theorem idle_recordResults
    {results : List ToolResultRecord} :
    Uses Op.Idle (fun _ => True)
      (recordResults results context) := by
  induction results generalizing context with
  | nil => trivial
  | cons result rest ih =>
      refine ⟨⟨id, id⟩, ?_⟩
      intro a
      cases a with
      | ok _ => exact ih
      | error _ => trivial

/- The results of a fresh batch are verdicts of its graph. -/
theorem VerdictRules.executePlannedCalls
    {M : Machine Op Answer World}
    {P : World → Op → Prop}
    {D : ToolNodeStatus → String → Prop}
    (hRules : VerdictRules M P engine context
      (newGraph context step calls) D)
    (hHost : OnHost M)
    (hRuns : ¬Waits engine calls approvalOverride)
    (hFresh : FreshBatch context step calls w) :
    Safe M P
      (fun r _ => ∃ batch, r = .executed batch ∧
        ∀ result ∈ batch.results,
          ∃ status, D status result.callId ∧
            (status = .succeeded ↔ result.isOk = true))
      (fun _ _ => True)
      (executePlannedCalls engine context step calls
        approvalOverride) w := by
  rw [executePlannedCalls_eq hRuns,
    hFresh.new.existingOrNewGraph_eq]
  refine Safe.bind (hRules.safe_idle idle_storeGraph) ?_
  intro _ before _
  refine Safe.bind (hRules.executeGraph hHost ?_) ?_
  · intro callId status hStatus
    rw [latestToolStatuses_eq, hFresh.newestStatus_eq]
      at hStatus
    cases hStatus
  · intro batch after hVerdicts
    exact ⟨batch, rfl, hVerdicts⟩

/- Recording the results keeps them. -/
theorem VerdictRules.runBatch
    {M : Machine Op Answer World}
    {P : World → Op → Prop}
    {D : ToolNodeStatus → String → Prop}
    (hRules : VerdictRules M P engine context
      (newGraph context step calls) D)
    (hHost : OnHost M)
    (hRuns : ¬Waits engine calls approvalOverride)
    (hFresh : FreshBatch context step calls w) :
    Safe M P
      (fun r _ => ∀ result ∈ r.1.results,
        ∃ status, D status result.callId ∧
          (status = .succeeded ↔ result.isOk = true))
      (fun _ _ => True)
      (runBatch engine context step calls approvalOverride)
      w := by
  unfold RainEngine.runBatch
  refine Safe.bind (hRules.executePlannedCalls hHost hRuns
    hFresh) ?_
  rintro r after ⟨batch, hEq, hVerdicts⟩
  subst hEq
  refine Safe.bind (hRules.safe_idle idle_recordResults) ?_
  intro recorded last _
  exact hVerdicts

/- Where every executor succeeds, only calls that settle do. -/
theorem runBatch_derives
    (hRuns : ¬Waits engine calls approvalOverride)
    (hFresh : FreshBatch context step calls w)
    (hNodup : (calls.map (·.callId)).Nodup) :
    Safe happy (fun _ _ => True)
      (fun r _ => ∀ result ∈ r.1.results, ∃ succeeds,
        Settles
          (batchSystem engine context
            (newGraph context step calls).nodes)
          succeeds result.callId)
      (fun _ _ => True)
      (runBatch engine context step calls approvalOverride)
      w := by
  have hNodes :
      ((newGraph context step calls).nodes.map
        (·.callId)).Nodup := by
    rw [newGraph_callIds]
    exact hNodup
  refine Safe.mono (fun _ _ h => h) ?_ (fun _ _ h => h)
    ((happy_verdictRules hNodes).runBatch .happy hRuns hFresh)
  intro r _ hVerdicts result hMem
  rcases hVerdicts result hMem with ⟨status, hSettles, _⟩
  exact ⟨_, hSettles⟩

/-
  A graph that is no longer active, with terminal checkpoints
  for its calls only, has distinct call ids.
-/
theorem Recorded.nodup_of_inactive
    {added : List SessionRecord}
    {results : List ToolResultRecord}
    (hFresh : FreshBatch context step calls w)
    (hRecorded :
      Recorded (newGraph context step calls) added results
        w w')
    (hCompletes :
      CompletesBatch calls
        (newGraph context step calls).graphId w w') :
    (calls.map (·.callId)).Nodup := by
  have hNotActive :
      ¬(terminalCheckpointIds
          (newGraph context step calls).graphId
          w'.ledger).toFinset.card <
        (newGraph context step calls).nodes.length := by
    intro hLess
    rw [← hRecorded.terminalCallIds_eq hFresh] at hLess
    have hActive := hRecorded.active_eq
    rw [if_pos hLess] at hActive
    exact hCompletes.inactive _ hActive rfl
  have hNodes :
      (newGraph context step calls).nodes.length =
        (calls.map (·.callId)).length := by
    simp [newGraph]
  rw [List.toFinset_eq_of_perm _ _ hCompletes.checkpointed,
    hNodes] at hNotActive
  have hLe := List.toFinset_card_le (calls.map (·.callId))
  have hCard :
      (calls.map (·.callId)).toFinset.card =
        (calls.map (·.callId)).length := by
    omega
  rw [List.card_toFinset] at hCard
  have hSublist := List.dedup_sublist (calls.map (·.callId))
  exact List.dedup_eq_self.mp (hSublist.eq_of_length hCard)

/- A batch that is always completed has calls that settle. -/
theorem settleable_of_completes
    (hRuns : ¬Waits engine calls approvalOverride)
    (hFresh : FreshBatch context step calls w)
    (hCompletes :
      ∀ steps w' batch context',
        Exec host w
          (runBatch engine context step calls
            approvalOverride) steps w'
          (some (.ok (.executed batch, .ok context'))) →
          CompletesBatch calls
            (newGraph context step calls).graphId w w') :
    Settleable engine context calls := by
  have hHappy := runBatch_happy hRuns hFresh
  rcases hHappy.exists_exec exists_happy_answer with
    ⟨steps, w', r, hExec⟩
  cases r with
  | error e => exact ((hHappy.result hExec).2 e rfl).elim
  | ok r =>
      rcases hHappy.returns hExec with
        ⟨batch, context', added, hEq, hRecorded⟩
      subst hEq
      have hDone := hCompletes _ _ _ _ hExec.of_restrict
      have hNodup := hRecorded.nodup_of_inactive hFresh hDone
      have hSettles :=
        (runBatch_derives hRuns hFresh hNodup).returns hExec
      refine ⟨hNodup, ?_⟩
      intro call hCall
      have hReported := hDone.reported
      rw [hRecorded.toolResults_drop] at hReported
      have hMem :
          call.callId ∈ batch.results.map (·.callId) :=
        hReported.mem_iff.mpr (List.mem_map_of_mem hCall)
      rcases List.mem_map.mp hMem with ⟨result, hResult, hId⟩
      rw [← hId]
      exact hSettles result hResult

end Completion

/-
  A fresh batch is completed, whatever the host answers,
  exactly when it waits for approval first or its call ids are
  distinct and its dependencies settle every call.
-/
theorem completesBatch_iff
    (engine : AgentEngine)
    (context : AgentContext)
    (step : Nat)
    (calls : List PlannedSkillCall)
    (approvalOverride : Bool)
    (w : World)
    (hFresh : FreshBatch context step calls w) :
    (∀ steps w' batch context',
      Exec host w
        (runBatch engine context step calls approvalOverride)
        steps w'
        (some (.ok (.executed batch, .ok context'))) →
        CompletesBatch calls
          (graphIdFor context.metadata.triggerId step) w
          w') ↔
      (Waits engine calls approvalOverride ∨
        Settleable engine context calls) := by
  constructor
  · intro hCompletes
    by_cases hWaits : Waits engine calls approvalOverride
    · exact .inl hWaits
    · exact .inr
        (settleable_of_completes hWaits hFresh hCompletes)
  · intro hCondition steps w' batch context' hExec
    by_cases hWaits : Waits engine calls approvalOverride
    · have hSuspends :=
        executePlannedCalls_waits (w := w) context step hWaits
      have hNever :
          Safe host (fun _ _ => True)
            (fun r _ => ∀ batch, r.1 ≠ .executed batch)
            (fun _ _ => True)
            (runBatch engine context step calls
              approvalOverride) w := by
        unfold runBatch
        refine Safe.bind (Safe.mono (fun _ _ _ => trivial)
          (fun _ _ h => h) (fun _ _ _ => trivial)
          hSuspends) ?_
        rintro _ after ⟨_, token, hEq⟩
        subst hEq
        nofun
      exact absurd rfl (hNever.returns hExec batch)
    · rcases hCondition with hYes | hSettleable
      · exact absurd hYes hWaits
      · exact (completesBatch_of_settleable hWaits hFresh
          hSettleable).returns hExec batch context' rfl

/-
  Calls with distinct ids whose dependencies go down a rank
  inside the batch settle, whatever their gates are.
-/
theorem settleable_of_rank
    {engine : AgentEngine}
    {context : AgentContext}
    {calls : List PlannedSkillCall}
    (rank : String → Nat)
    (hNodup : (calls.map (·.callId)).Nodup)
    (hRank :
      ∀ call ∈ calls, ∀ needed ∈ call.dependsOn,
        needed ∈ calls.map (·.callId) ∧
          rank needed < rank call.callId) :
    Settleable engine context calls := by
  refine ⟨hNodup, ?_⟩
  intro call hCall
  refine Dependencies.settles_of_rank rank ?_ ?_
  · rintro callId needed _ ⟨node, hNode, hId, hNeeded⟩
    rcases List.mem_mapIdx.mp hNode with ⟨i, hBound, hEq⟩
    subst hEq hId
    have hDown := hRank calls[i] (List.getElem_mem hBound)
      needed (by simpa [PlannedSkillCall.toNode] using hNeeded)
    refine ⟨?_, hDown.2⟩
    rcases List.mem_map.mp hDown.1 with ⟨other, hOther, hSame⟩
    rcases List.mem_iff_getElem.mp hOther with
      ⟨j, hLess, hGet⟩
    refine List.mem_map.mpr
      ⟨_, List.mem_mapIdx.mpr ⟨j, hLess, rfl⟩, ?_⟩
    rw [hGet]
    exact hSame
  · rcases List.mem_iff_getElem.mp hCall with ⟨j, hLess, hGet⟩
    refine List.mem_map.mpr
      ⟨_, List.mem_mapIdx.mpr ⟨j, hLess, rfl⟩, ?_⟩
    rw [hGet]
    rfl

------------------------------------------------------------
-- A Call That Waits For Itself
------------------------------------------------------------

/- A batch of one call that depends on itself. -/
def selfDependentCalls : List PlannedSkillCall :=
  [{ Sample.call "a" .null with dependsOn := ["a"] }]

/- The first message of a session, told to run that batch. -/
def selfDependentSession : World :=
  Script.session Sample.engine
    [(Sample.callsFirst selfDependentCalls,
      .trigger Sample.message)]
    (World.empty "session")

def firstContext : AgentContext :=
  triggerContext Sample.message "0"
    (World.empty "session").snapshot

theorem freshBatch_first
    (step : Nat)
    (calls : List PlannedSkillCall) :
    FreshBatch firstContext step calls
      (World.empty "session") := by
  refine ⟨⟨?_, ?_⟩, ?_⟩
  · nofun
  · nofun
  · nofun

/- The condition at a batch of one plain call. -/
theorem completesBatch_plain :
    (∀ steps w' batch context',
      Exec host (World.empty "session")
        (runBatch Sample.engine firstContext 0
          [Sample.call "a" .null] false) steps w'
        (some (.ok (.executed batch, .ok context'))) →
        CompletesBatch [Sample.call "a" .null]
          (graphIdFor firstContext.metadata.triggerId 0)
          (World.empty "session") w') ↔
      (Waits Sample.engine [Sample.call "a" .null] false ∨
        Settleable Sample.engine firstContext
          [Sample.call "a" .null]) :=
  completesBatch_iff Sample.engine firstContext 0
    [Sample.call "a" .null] false (World.empty "session")
    (freshBatch_first 0 _)

set_option maxRecDepth 100000 in
/-
  The call is never run. Its graph stays active after the
  advance has ended.
-/
theorem selfDependent_not_completed :
    ¬(∀ steps w' batch context',
      Exec host (World.empty "session")
        (runBatch Sample.engine firstContext 0
          selfDependentCalls false) steps w'
        (some (.ok (.executed batch, .ok context'))) →
        CompletesBatch selfDependentCalls
          (graphIdFor firstContext.metadata.triggerId 0)
          (World.empty "session") w') ∧
    ((activeToolExecutionGraph
      selfDependentSession.ledger).map (·.graphId)) =
        some "0:0" := by
  refine ⟨?_, by decide⟩
  intro hCompletes
  have hRuns :
      ¬Waits Sample.engine selfDependentCalls false := by
    rintro ⟨_, hWaiting⟩
    exact hWaiting (by decide)
  have hSettleable := settleable_of_completes hRuns
    (freshBatch_first 0 selfDependentCalls) hCompletes
  rcases hSettleable.settles _ (List.mem_singleton_self _)
    with ⟨succeeds, hSettles⟩
  refine hSettles.not_in_loop (fun callId => callId = "a")
    ?_ ?_ rfl
  · rintro callId hEq
    subst hEq
    exact ⟨"a", ⟨_, List.mem_singleton_self _, rfl,
      List.mem_singleton_self _⟩, rfl⟩
  · rintro callId needed _ ⟨node, hNode, _, hNeeded⟩
    rw [selfDependentCalls, List.mapIdx_singleton,
      List.mem_singleton] at hNode
    subst hNode
    simpa [PlannedSkillCall.toNode] using hNeeded

end RainEngine
