import RainEngine.Batches.Calm
import RainEngine.Batches.Schedules
import RainEngine.Kernel.Script

/-
  This file states what the loop of a batch covers. It always
  comes to an end, the calls it leaves undecided are the most
  that can wait for each other or for a call that no node has,
  and it returns one result for each call it has decided.

  Key definitions include:
    * `Stranded`
    * `CoversBatch`
    * `calmHost`

  Key theorems include:
    * `stranded_isGreatest`
    * `executeGraph_covers`
    * `outside_success_counts`
-/

namespace RainEngine

open Effects
open Dependencies (Schedule Waiting)

------------------------------------------------------------
-- Calls That Are Left
------------------------------------------------------------

/-
  Calls of the graph that were not decided at entry, have no
  dependency that went wrong, and each have one among them or
  one outside the graph that has not succeeded.
-/
structure Stranded
    (graph : ToolExecutionGraph)
    (entry final : StatusMap)
    (callIds : Set String) : Prop where
  members :
    ∀ callId ∈ callIds,
      callId ∈ graph.nodes.map (·.callId) ∧
        isTerminalStatus (entry callId) = false
  unblocked :
    ∀ node ∈ graph.nodes, node.callId ∈ callIds →
      ∀ dependency ∈ node.dependencies,
        final dependency.callId ≠ some .failed ∧
          final dependency.callId ≠ some .skipped ∧
          final dependency.callId ≠ some .timedOut
  starved :
    ∀ node ∈ graph.nodes, node.callId ∈ callIds →
      ∃ dependency ∈ node.dependencies,
        dependency.callId ∈ callIds ∨
          dependency.callId ∉ graph.nodes.map (·.callId) ∧
            final dependency.callId ≠ some .succeeded

/- The calls of a graph without a terminal status. -/
def undecided
    (graph : ToolExecutionGraph)
    (status : StatusMap) :
    Set String :=
  {callId | callId ∈ graph.nodes.map (·.callId) ∧
    isTerminalStatus (status callId) = false}

/-
  What an execution of a graph leaves undecided, and what it
  returns: one result for each call decided by it, in the
  order of the nodes.
-/
structure CoversBatch
    (graph : ToolExecutionGraph)
    (entry final : StatusMap)
    (batch : ExecutedBatch) : Prop where
  left :
    IsGreatest {callIds | Stranded graph entry final callIds}
      (undecided graph final)
  results :
    batch.results.map (·.callId) =
      (graph.nodes.filter fun node =>
        !isTerminalStatus (entry node.callId) &&
          isTerminalStatus (final node.callId)).map
        (·.callId)

/- A host whose store answers and whose tasks do not panic. -/
def calmHost : Machine Op Answer World :=
  host.restrict fun _ op a => Calm op a

section Coverage

variable {engine : AgentEngine}
variable {context : AgentContext}
variable {graph : ToolExecutionGraph}
variable {entry final reached : StatusMap}
variable {callIds : Set String}
variable {step : Nat}
variable {w : World}

/- The waiting items of the system are the stranded calls. -/
theorem waiting_iff_stranded
    (hNodup : (graph.nodes.map (·.callId)).Nodup) :
    Waiting (batchSystem engine context graph.nodes)
        (successOf entry) (successOf final) callIds ↔
      Stranded graph entry final callIds := by
  constructor
  · intro hWaiting
    constructor
    · intro callId hMem
      have hMember := hWaiting.members callId hMem
      exact ⟨hMember.1, successOf_eq_none_iff.mp hMember.2⟩
    · intro node hNode hMem dependency hNeeds
      have hNot := hWaiting.unblocked node.callId hMem
        dependency.callId
        ⟨node, hNode, rfl, List.mem_map_of_mem hNeeds⟩
      rw [Ne, successOf_eq_false_iff] at hNot
      push Not at hNot
      exact hNot
    · intro node hNode hMem
      rcases hWaiting.starved node.callId hMem with
        ⟨needed, ⟨other, hOther, hId, hNeeds⟩, hStarved⟩
      have hSame := List.inj_on_of_nodup_map hNodup hOther
        hNode hId
      subst hSame
      rcases List.mem_map.mp hNeeds with
        ⟨dependency, hDependency, hEq⟩
      subst hEq
      refine ⟨dependency, hDependency, ?_⟩
      rcases hStarved with hIn | ⟨hOut, hNot⟩
      · exact .inl hIn
      · rw [Ne, successOf_eq_true_iff] at hNot
        exact .inr ⟨hOut, hNot⟩
  · intro hStranded
    constructor
    · intro callId hMem
      have hMember := hStranded.members callId hMem
      exact ⟨hMember.1, successOf_eq_none_iff.mpr hMember.2⟩
    · rintro callId hMem needed
        ⟨node, hNode, hId, hNeeds⟩ hFalse
      subst hId
      rcases List.mem_map.mp hNeeds with
        ⟨dependency, hDependency, hEq⟩
      subst hEq
      rw [successOf_eq_false_iff] at hFalse
      have hNot := hStranded.unblocked node hNode hMem
        dependency hDependency
      rcases hFalse with hFailed | hSkipped | hTimedOut
      · exact hNot.1 hFailed
      · exact hNot.2.1 hSkipped
      · exact hNot.2.2 hTimedOut
    · intro callId hMem
      rcases List.mem_map.mp (hStranded.members callId hMem).1
        with ⟨node, hNode, hId⟩
      subst hId
      rcases hStranded.starved node hNode hMem with
        ⟨dependency, hDependency, hStarved⟩
      refine ⟨dependency.callId,
        ⟨node, hNode, rfl, List.mem_map_of_mem hDependency⟩,
        ?_⟩
      rcases hStarved with hIn | ⟨hOut, hNot⟩
      · exact .inl hIn
      · refine .inr ⟨hOut, ?_⟩
        rw [Ne, successOf_eq_true_iff]
        exact hNot

/-
  What a finished loop leaves are the most stranded calls, for
  every account of the statuses it has reached.
-/
theorem stranded_isGreatest
    {start last : BatchState}
    (engine : AgentEngine)
    (context : AgentContext)
    (hNodup : (graph.nodes.map (·.callId)).Nodup)
    (hRun : BatchRun graph start last)
    (hQuiet : Quiescent graph last.status)
    (hSettled : ∀ callId, settled (last.status callId) =
      settled (final callId)) :
    IsGreatest
      {callIds | Stranded graph start.status final callIds}
      (undecided graph final) := by
  have hSame : successOf last.status = successOf final := by
    funext callId
    unfold successOf
    rw [hSettled callId]
  have hSchedule : Schedule
      (batchSystem engine context graph.nodes)
      (successOf start.status) (successOf last.status) :=
    hRun.schedule hNodup
  have hGreatest :=
    hSchedule.isGreatest_open (hQuiet.quiet hNodup)
  have hWaiting :
      {callIds | Waiting
        (batchSystem engine context graph.nodes)
        (successOf start.status) (successOf final) callIds} =
      {callIds |
        Stranded graph start.status final callIds} := by
    ext callIds
    exact waiting_iff_stranded hNodup
  have hOpen :
      {callId |
        (batchSystem engine context graph.nodes).member
          callId ∧ successOf final callId = none} =
      undecided graph final := by
    ext callId
    simp [batchSystem, undecided, successOf_eq_none_iff]
  rw [hSame, hWaiting, hOpen] at hGreatest
  exact hGreatest

/- A finished loop covers its graph. -/
theorem BatchRun.covers
    {start last : BatchState}
    (engine : AgentEngine)
    (context : AgentContext)
    (hNodup : (graph.nodes.map (·.callId)).Nodup)
    (hStart : start.newResults = [])
    (hRun : BatchRun graph start last)
    (hQuiet : Quiescent graph last.status)
    (hSettled : ∀ callId, settled (last.status callId) =
      settled (final callId))
    (allFailed : Bool) :
    CoversBatch graph start.status final
      { results := orderedResults graph last.newResults
        allFailed := allFailed } := by
  have hTerminal : ∀ callId,
      isTerminalStatus (last.status callId) =
        isTerminalStatus (final callId) := by
    intro callId
    rw [Bool.eq_iff_iff, isTerminalStatus_iff,
      isTerminalStatus_iff, hSettled]
  constructor
  · exact stranded_isGreatest engine context hNodup hRun
      hQuiet hSettled
  · rw [orderedResults_ids (hRun.accounts hStart)]
    simp only [hTerminal]

/- Tasks are joined in any order, but all of them. -/
theorem joinsAll_host : JoinsAll host :=
  fun _ _ _ hAllowed => hAllowed

/- The state in which the loop is entered. -/
def entryState
    (context : AgentContext)
    (graph : ToolExecutionGraph) :
    BatchState where
  status := latestToolStatuses context graph.graphId
  attempts := startedAttemptCounts context graph.graphId
  newResults := []

/- An execution that returns covers its graph. -/
theorem executeGraph_returns
    (hNodup : (graph.nodes.map (·.callId)).Nodup) :
    Safe host (fun _ op => op ≠ .outOfFuel)
      (fun batch w' => CoversBatch graph
        (latestToolStatuses context graph.graphId)
        (statusesAfter context graph (appendedSince w w'))
        batch)
      (fun _ _ => True)
      (executeGraph engine context graph step) w := by
  have hLanding : Landing context graph
      (entryState context graph).status [] [] :=
    landing_initial
  have hRuns : Safe host (fun _ _ => True)
      (fun last _ =>
        BatchRun graph (entryState context graph) last)
      (fun _ _ => True)
      (runGraph engine context graph step
        (graph.nodes.length + 1)
        (entryState context graph)) w :=
    runGraph_schedules joinsAll_host hNodup .refl
  have hEnds : Safe host (fun _ op => op ≠ .outOfFuel)
      (fun last _ =>
        (entryState context graph).LeadsTo last ∧
          Quiescent graph last.status)
      (fun _ _ => True)
      (runGraph engine context graph step
        (graph.nodes.length + 1)
        (entryState context graph)) w :=
    runGraph_ends (unsettledCount_lt_fuel _)
  have hLands := safe_of_journal (w := w) .host
    (List.append_nil _).symm
    (runGraph_inOrder hNodup hLanding :
      Safe journal _ _ _
        (runGraph engine context graph step
          (graph.nodes.length + 1)
          (entryState context graph)) [])
  unfold executeGraph
  refine Safe.bind (Safe.mono (fun _ _ h => h.1.1)
    (fun _ _ h => h) (fun _ _ _ => trivial)
    ((hEnds.and hRuns).and hLands)) ?_
  rintro last w' ⟨⟨⟨_, hQuiet⟩, hTurns⟩, added, hLedger,
    hLanded⟩
  have hAdded : appendedSince w w' = added := by
    unfold appendedSince
    rw [hLedger, List.drop_left]
  refine BatchRun.covers engine context hNodup rfl hTurns
    hQuiet ?_ _
  rw [hAdded]
  exact hLanded.reflects

/- On a calm host an execution ends with a batch. -/
theorem executeGraph_batch
    {steps : List (Step Op Answer World)}
    {w' : World}
    {result : Except EngineError ExecutedBatch}
    (hExec : Exec calmHost w
      (executeGraph engine context graph step) steps w'
      (some result)) :
    ∃ batch, result = .ok batch := by
  have hCalm := (executeGraph_calm
    (C := fun _ op a => Calm op a) (fun _ _ _ h => h)).result
    hExec
  cases result with
  | ok batch => exact ⟨batch, rfl⟩
  | error e => exact (hCalm.2 e rfl).elim

end Coverage

/-
  Whatever the calls return and in which order they end, an
  execution never uses up its fuel and can be run to its end,
  and if it is at its end it covers its graph.
-/
theorem executeGraph_covers
    (engine : AgentEngine)
    (context : AgentContext)
    (graph : ToolExecutionGraph)
    (step : Nat)
    (w : World)
    (steps : List (Step Op Answer World))
    (w' : World)
    (r : Option (Except EngineError ExecutedBatch))
    (hNodup : (graph.nodes.map (·.callId)).Nodup)
    (hExec : Exec calmHost w
      (executeGraph engine context graph step) steps w' r) :
    (∀ s ∈ steps, s.op ≠ .outOfFuel) ∧
      (∃ more w'' batch,
        Exec calmHost w
          (executeGraph engine context graph step)
          (steps ++ more) w'' (some (.ok batch))) ∧
      ∀ result, r = some result → ∃ batch,
        result = .ok batch ∧
          CoversBatch graph
            (latestToolStatuses context graph.graphId)
            (statusesAfter context graph
              (appendedSince w w'))
            batch := by
  have hEnds : Safe host (fun _ op => op ≠ .outOfFuel)
      (fun _ _ => True) (fun _ _ => True)
      (executeGraph engine context graph step) w :=
    executeGraph_ends
  refine ⟨hEnds.steps hExec.of_restrict, ?_, ?_⟩
  · rcases (hEnds.restrict (C := fun _ op a => Calm op a))
        |>.completes exists_calm_answer hExec with
      ⟨more, w'', result, hDone⟩
    rcases executeGraph_batch hDone with ⟨batch, hBatch⟩
    subst hBatch
    exact ⟨more, w'', batch, hDone⟩
  · intro result hResult
    subst hResult
    rcases executeGraph_batch hExec with ⟨batch, hBatch⟩
    subst hBatch
    exact ⟨batch, rfl,
      (executeGraph_returns hNodup).returns
        hExec.of_restrict⟩

------------------------------------------------------------
-- Calls That Wait For Each Other
------------------------------------------------------------

namespace Sample

/- A script whose skills return is a calm one. -/
theorem callsFirst_allowed
    {w : World}
    {op : Op}
    {a : Answer op}
    (hAnswer : (callsFirst []).answer w op = some a) :
    calmHost.allowed w op a := by
  refine ⟨(Script.answer_allowed hAnswer).1, ?_⟩
  have hReply : (callsFirst []).reply w op = some a := by
    simpa [Script.answer, callsFirst] using hAnswer
  cases op with
  | append record => exact (Option.some.inj hReply).symm
  | loadSession => exact ⟨_, (Option.some.inj hReply).symm⟩
  | findOutcome key =>
      exact ⟨_, (Option.some.inj hReply).symm⟩
  | findPendingApproval token =>
      exact ⟨_, (Option.some.inj hReply).symm⟩
  | listRecords offset limit =>
      exact ⟨_, (Option.some.inj hReply).symm⟩
  | execute backend invocation =>
      exact ⟨_, (Option.some.inj hReply).symm⟩
  | _ => trivial

theorem callsFirst_calm
    {α : Type}
    (p : EngineM α)
    (w : World) :
    Exec calmHost w p
      ((callsFirst []).run p w).1
      ((callsFirst []).run p w).2.1
      ((callsFirst []).run p w).2.2 := by
  have hNext : reliable.next = calmHost.next := rfl
  exact Program.run_exec_of_next hNext
    (fun _ _ _ hAnswer => callsFirst_allowed hAnswer) p w

def needing (callId : String) (needed : List String) :
    PlannedSkillCall :=
  { call callId .null with dependsOn := needed }

/- Two calls in a loop, one behind them, and two others. -/
def knotGraph : ToolExecutionGraph :=
  newGraph firstContext 0
    [needing "a" ["b"], needing "b" ["a"],
      needing "c" ["b"], needing "d" ["x"], call "e" .null]

def knotRun :
    List (Step Op Answer World) × World ×
      Option (Except EngineError ExecutedBatch) :=
  (callsFirst []).run
    (executeGraph engine firstContext knotGraph 0)
    (World.empty "session")

end Sample

set_option maxRecDepth 100000 in
/- The loop comes to its end with four of five calls left. -/
theorem executeGraph_covers_knot :
    Sample.knotRun.2.2.isSome = true ∧
      ((∀ s ∈ Sample.knotRun.1, s.op ≠ .outOfFuel) ∧
        (∃ more w'' batch,
          Exec calmHost (World.empty "session")
            (executeGraph Sample.engine firstContext
              Sample.knotGraph 0)
            (Sample.knotRun.1 ++ more) w''
            (some (.ok batch))) ∧
        ∀ result, Sample.knotRun.2.2 = some result →
          ∃ batch, result = .ok batch ∧
            CoversBatch Sample.knotGraph
              (latestToolStatuses firstContext
                Sample.knotGraph.graphId)
              (statusesAfter firstContext Sample.knotGraph
                (appendedSince (World.empty "session")
                  Sample.knotRun.2.1))
              batch) :=
  ⟨by decide +kernel,
    executeGraph_covers Sample.engine firstContext
      Sample.knotGraph 0 (World.empty "session") _ _ _
      (by decide) (Sample.callsFirst_calm _ _)⟩

namespace Sample

/- A graph of one call that needs a call of no node. -/
def outsideGraph : ToolExecutionGraph :=
  newGraph firstContext 0 [needing "d" ["x"]]

/- A ledger in which that other call has succeeded. -/
def outsideWorld : World :=
  (World.empty "session").append
    (.toolNodeCheckpoint
      { checkpointId := "checkpoint"
        graphId := outsideGraph.graphId
        callId := "x"
        skillName := "echo"
        step := 0
        status := .succeeded
        attempt := 0
        detail := none })

def outsideContext : AgentContext :=
  triggerContext message "0" outsideWorld.snapshot

def outsideRun :
    List (Step Op Answer World) × World ×
      Option (Except EngineError ExecutedBatch) :=
  (callsFirst []).run
    (executeGraph engine outsideContext outsideGraph 0)
    outsideWorld

end Sample

/-
  As `Stranded`, but a call outside the graph keeps a call
  waiting whatever its own status is.
-/
structure StrandedOutside
    (graph : ToolExecutionGraph)
    (entry final : StatusMap)
    (callIds : Set String) : Prop where
  members :
    ∀ callId ∈ callIds,
      callId ∈ graph.nodes.map (·.callId) ∧
        isTerminalStatus (entry callId) = false
  unblocked :
    ∀ node ∈ graph.nodes, node.callId ∈ callIds →
      ∀ dependency ∈ node.dependencies,
        final dependency.callId ≠ some .failed ∧
          final dependency.callId ≠ some .skipped ∧
          final dependency.callId ≠ some .timedOut
  starved :
    ∀ node ∈ graph.nodes, node.callId ∈ callIds →
      ∃ dependency ∈ node.dependencies,
        dependency.callId ∈ callIds ∨
          dependency.callId ∉ graph.nodes.map (·.callId)

set_option maxRecDepth 100000 in
/-
  A call outside the graph may have succeeded. What needs it
  is run then, and does not wait.
-/
theorem outside_success_counts :
    ¬(∀ engine context graph step w steps w' batch,
      (graph.nodes.map (·.callId)).Nodup →
        Exec calmHost w
          (executeGraph engine context graph step) steps w'
          (some (.ok batch)) →
          IsGreatest
            {callIds | StrandedOutside graph
              (latestToolStatuses context graph.graphId)
              (statusesAfter context graph
                (appendedSince w w'))
              callIds}
            (undecided graph
              (statusesAfter context graph
                (appendedSince w w')))) := by
  intro hGreatest
  have hDone : ∃ batch,
      ((Sample.callsFirst []).run
        (executeGraph Sample.engine Sample.outsideContext
          Sample.outsideGraph 0) Sample.outsideWorld).2.2 =
        some (.ok batch) := by
    have hSome : Sample.outsideRun.2.2.isSome = true := by
      decide +kernel
    rcases Option.isSome_iff_exists.mp hSome with
      ⟨result, hResult⟩
    have hExec := Sample.callsFirst_calm
      (executeGraph Sample.engine Sample.outsideContext
        Sample.outsideGraph 0) Sample.outsideWorld
    unfold Sample.outsideRun at hResult
    rw [hResult] at hExec
    rcases executeGraph_batch hExec with ⟨batch, hBatch⟩
    subst hBatch
    exact ⟨batch, hResult⟩
  rcases hDone with ⟨batch, hBatch⟩
  have hExec := Sample.callsFirst_calm
    (executeGraph Sample.engine Sample.outsideContext
      Sample.outsideGraph 0) Sample.outsideWorld
  rw [hBatch] at hExec
  have hLeft := (hGreatest _ _ _ _ _ _ _ _ (by decide)
    hExec).2
  have hStranded : StrandedOutside Sample.outsideGraph
      (latestToolStatuses Sample.outsideContext
        Sample.outsideGraph.graphId)
      (statusesAfter Sample.outsideContext
        Sample.outsideGraph
        (appendedSince Sample.outsideWorld
          Sample.outsideRun.2.1)) {"d"} := by
    have hNodes : ∀ node ∈ Sample.outsideGraph.nodes,
        node.dependencies.map (·.callId) = ["x"] := by
      decide
    constructor
    · intro callId hMem
      rw [Set.mem_singleton_iff] at hMem
      subst hMem
      decide +kernel
    · intro node hNode _ dependency hDependency
      have hId : dependency.callId ∈ ["x"] := by
        rw [← hNodes node hNode]
        exact List.mem_map_of_mem hDependency
      rw [List.mem_singleton] at hId
      rw [hId]
      decide +kernel
    · intro node hNode _
      have hMem : "x" ∈ node.dependencies.map (·.callId) := by
        rw [hNodes node hNode]
        exact List.mem_singleton_self _
      rcases List.mem_map.mp hMem with
        ⟨dependency, hDependency, hId⟩
      refine ⟨dependency, hDependency, .inr ?_⟩
      rw [hId]
      decide
  have hDecided : isTerminalStatus
      (statusesAfter Sample.outsideContext
        Sample.outsideGraph
        (appendedSince Sample.outsideWorld
          Sample.outsideRun.2.1) "d") = true := by
    decide +kernel
  have hOpen := (hLeft hStranded (Set.mem_singleton "d")).2
  unfold Sample.outsideRun at hDecided
  rw [hDecided] at hOpen
  cases hOpen

end RainEngine
