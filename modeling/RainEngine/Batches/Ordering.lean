import RainEngine.Batches.Completion
import RainEngine.Batches.Waves

/-
  This file proves that a batch is executed in order, whatever
  the calls return, whenever they finish and whatever
  checkpoints it starts with. Nodes that an earlier execution
  has left started are not counted: they may stand beside the
  nodes of this one.

  Key definitions include:
    * `SchedulesInOrder`

  Key theorems include:
    * `executeGraph_inOrder`
    * `stale_nodes_exceed_limit`
-/

namespace RainEngine

open Effects

/- The records an execution has appended to a ledger. -/
def appendedSince
    (w w' : World) :
    List SessionRecord :=
  w'.ledger.drop w.ledger.length

/-
  An execution that starts nodes in order, and at no moment has
  more of them in flight than may run at a time.
-/
structure SchedulesInOrder
    (context : AgentContext)
    (graph : ToolExecutionGraph)
    (w : World)
    (steps : List (Step Op Answer World))
    (w' : World) : Prop where
  inOrder :
    ∀ s ∈ steps,
      InOrder context graph (appendedSince w s.before) s.op
  limited :
    ∀ s ∈ steps,
      WithinLimit context graph (appendedSince w s.before)
  ends : WithinLimit context graph (appendedSince w w')

/-
  Every execution of a graph with distinct calls, stopped at
  any moment or run to its end, is in order.
-/
theorem executeGraph_inOrder
    (engine : AgentEngine)
    (context : AgentContext)
    (graph : ToolExecutionGraph)
    (step : Nat)
    (w : World)
    (steps : List (Step Op Answer World))
    (w' : World)
    (r : Option (Except EngineError ExecutedBatch))
    (hNodup : (graph.nodes.map (·.callId)).Nodup)
    (hExec : Exec host w
      (executeGraph engine context graph step) steps w' r) :
    SchedulesInOrder context graph w steps w' := by
  have hGraph : Safe journal (InOrder context graph)
      (fun _ _ => True) (fun _ _ => True)
      (executeGraph engine context graph step) [] := by
    unfold executeGraph
    exact Safe.bind
      (runGraph_inOrder hNodup landing_initial)
      fun _ _ _ => trivial
  have hSafe := safe_of_journal (w := w) .host
    (List.append_nil _).symm hGraph
  have hAdded : ∀ {w'' : World} {added},
      w''.ledger = w.ledger ++ added →
        appendedSince w w'' = added := by
    intro w'' added hLedger
    unfold appendedSince
    rw [hLedger, List.drop_left]
  have hOrder : ∀ s ∈ steps,
      InOrder context graph (appendedSince w s.before)
        s.op := by
    intro s hMem
    rcases hSafe.steps hExec s hMem with
      ⟨added, hLedger, hInOrder⟩
    rw [hAdded hLedger]
    exact hInOrder
  have hInit : WithinLimit context graph
      (appendedSince w w) := by
    rw [hAdded (List.append_nil _).symm]
    exact landing_initial.limited
  have hLimits := hSafe.invariant hExec (I := fun w'' =>
    WithinLimit context graph (appendedSince w w'')) ?_ hInit
  · exact ⟨hOrder, hLimits.1, hLimits.2⟩
  · rintro w'' op a hLimited ⟨added, hLedger, hInOrder⟩ _
    have hNext :
        appendedSince w (host.next w'' op a) =
          added ++ (storedBy op a).toList := by
      apply hAdded
      change (hostNext w'' op a).ledger = _
      rw [hostNext_stored, hLedger, List.append_assoc]
    rw [hAdded hLedger] at hLimited
    rw [hNext]
    cases op with
    | append record =>
        cases a with
        | ok _ => exact (hInOrder record rfl).1
        | error error =>
            simpa [storedBy] using hLimited
    | _ => simpa [storedBy] using hLimited

------------------------------------------------------------
-- A Batch That Was Interrupted
------------------------------------------------------------

namespace Sample

/- The graph of two plain calls. -/
def pairGraph : ToolExecutionGraph :=
  newGraph firstContext 0 [call "a" .null, call "b" .null]

/- A host that stops before a wave is joined. -/
def stopsRunning : Script :=
  { callsFirst [] with
    stopsAt
    | .completions _ => true
    | _ => false }

/- The first execution runs both calls and is stopped. -/
def interruptedWorld : World :=
  (stopsRunning.run (executeGraph engine firstContext
    pairGraph 0) (World.empty "session")).2.1

/- The context of a later advance that runs calls serially. -/
def serialContext : AgentContext :=
  triggerContext
    { message with
      policy :=
        { message.policy with maxParallelSkillCalls := 1 } }
    "0" interruptedWorld.snapshot

/- The second execution, stopped in its first wave. -/
def serialRun :
    List (Step Op Answer World) × World ×
      Option (Except EngineError ExecutedBatch) :=
  stopsRunning.run
    (executeGraph engine serialContext pairGraph 0)
    interruptedWorld

theorem serialRun_exec :
    Exec host interruptedWorld
      (executeGraph engine serialContext pairGraph 0)
      serialRun.1 serialRun.2.1 serialRun.2.2 :=
  (Script.run_exec _ _ _).of_restrict

end Sample

set_option maxRecDepth 100000 in
/- The resumed execution starts one node, in order. -/
theorem executeGraph_inOrder_resumed :
    (inFlight Sample.pairGraph
        (appendedSince Sample.interruptedWorld
          Sample.serialRun.2.1)).map (·.callId) = ["a"] ∧
      SchedulesInOrder Sample.serialContext Sample.pairGraph
        Sample.interruptedWorld Sample.serialRun.1
        Sample.serialRun.2.1 :=
  ⟨by decide +kernel,
    executeGraph_inOrder Sample.engine Sample.serialContext
      Sample.pairGraph 0 Sample.interruptedWorld _ _ _
      (by decide) Sample.serialRun_exec⟩

set_option maxRecDepth 100000 in
/-
  The node that the first execution has left started stands
  beside the one the resumed execution runs.
-/
theorem stale_nodes_exceed_limit :
    ¬(∀ engine context graph step w steps w' r,
      (graph.nodes.map (·.callId)).Nodup →
        Exec host w (executeGraph engine context graph step)
          steps w' r →
          (graph.nodes.filter fun node =>
            statusesAfter context graph (appendedSince w w')
              node.callId = some .started).length ≤
            max 1
              context.metadata.policy.maxParallelSkillCalls) := by
  intro hLimited
  have hStale := hLimited Sample.engine Sample.serialContext
    Sample.pairGraph 0 Sample.interruptedWorld _ _ _
    (by decide) Sample.serialRun_exec
  have hTwo :
      (Sample.pairGraph.nodes.filter fun node =>
        statusesAfter Sample.serialContext Sample.pairGraph
          (appendedSince Sample.interruptedWorld
            Sample.serialRun.2.1)
          node.callId = some .started).length = 2 := by
    decide +kernel
  rw [hTwo] at hStale
  revert hStale
  decide +kernel

end RainEngine
