import RainEngine.Batches.Completion
import RainEngine.Kernel.Engine

/-
  This file says what a batch does when executors panic. The
  join error of a panicked task ends the batch, so the panics
  are survived exactly when none of them is ever reached.

  Key definitions include:
    * `panicking`
    * `SurvivesPanics`
    * `NoPanicReached`

  Key theorems include:
    * `runBatch_avoids`
    * `survivesPanics_iff`
-/

namespace RainEngine

open Effects
open Dependencies (Settles)

------------------------------------------------------------
-- Executors That Panic
------------------------------------------------------------

/- The executor panics for the given calls and no other. -/
def PanicsAs
    (panics : String → String → Prop) :
    (op : Op) → Answer op → Prop
| .execute _ invocation, a =>
    panics invocation.callId invocation.manifest.name ↔
      ∃ joinError, a = .panicked joinError
| _, _ => True

/-
  The host with a working store on which the given calls, by
  their id and skill, panic when they are executed.
-/
def panicking
    (panics : String → String → Prop) :
    Machine Op Answer World :=
  host.restrict fun _ op a =>
    StoreAnswered op a ∧ PanicsAs panics op a

/- The call has panicked in a step. -/
def PanicsIn
    (s : Step Op Answer World)
    (callId : String) :
    Prop :=
  ∃ before backend invocation joinError,
    s = ⟨before, .execute backend invocation,
      .panicked joinError⟩ ∧
      invocation.callId = callId

/- The call is executed in a step. -/
def ExecutesIn
    (s : Step Op Answer World)
    (callId : String) :
    Prop :=
  ∃ backend invocation,
    s.op = .execute backend invocation ∧
      invocation.callId = callId

/-
  The batch does not fail, every call has its own terminal
  checkpoint and result, and a call that has panicked has a
  failed result and is not executed by a later continuation.
-/
structure SurvivesPanics
    (calls : List PlannedSkillCall)
    (graphId : String)
    (w : World)
    (steps : List (Step Op Answer World))
    (w' : World)
    (r : Except EngineError
      (BatchExecution × Except MemoryError AgentContext)) :
    Prop where
  returns :
    ∃ execution context', r = .ok (execution, .ok context')
  completes :
    ∀ batch context', r = .ok (.executed batch, .ok context') →
      CompletesBatch calls graphId w w'
  failed :
    ∀ s ∈ steps, ∀ callId, PanicsIn s callId →
      callId ∈ terminalCheckpointIds graphId w'.ledger ∧
        ∃ result ∈
            toolResults (w'.ledger.drop w.ledger.length),
          result.callId = callId ∧ result.isOk = false
  notAgain :
    ∀ s ∈ steps, ∀ callId, PanicsIn s callId →
      ∀ engine request steps' w'' r',
        Exec reliable w' (advanceContinue engine request)
            steps' w'' r' →
          ∀ s' ∈ steps', ¬ExecutesIn s' callId

/- No call that panics would be run and succeed otherwise. -/
def NoPanicReached
    (engine : AgentEngine)
    (context : AgentContext)
    (calls : List PlannedSkillCall)
    (panics : String → String → Prop) :
    Prop :=
  ∀ call ∈ calls, panics call.callId call.name →
    ¬Settles
      (batchSystem engine context
        (calls.mapIdx PlannedSkillCall.toNode))
      true call.callId

section Panics

variable {engine : AgentEngine}
variable {context : AgentContext}
variable {step : Nat}
variable {calls : List PlannedSkillCall}
variable {approvalOverride : Bool}
variable {panics : String → String → Prop}
variable {graph : ToolExecutionGraph}
variable {node : ToolNode}
variable {w w' : World}

theorem OnHost.panicking : OnHost (panicking panics) where
  next := rfl
  allowed := fun _ _ _ h => h.1

/- A request that runs no call that panics. -/
def AvoidsPanics
    (panics : String → String → Prop)
    (op : Op) :
    Prop :=
  ∀ backend invocation, op = .execute backend invocation →
    ¬panics invocation.callId invocation.manifest.name

theorem avoidsPanics_of_idle
    {op : Op}
    (hIdle : ¬op.Executes) :
    AvoidsPanics panics op := by
  rintro backend invocation hEq
  subst hEq
  exact absurd trivial hIdle

/- A prepared call carries the name of its node's skill. -/
theorem PreparedFor.manifest_name
    {prepared : PreparedCall}
    (hPrepared : PreparedFor engine context node prepared) :
    prepared.manifest.name = node.skillName := by
  rcases hPrepared.gates with ⟨skill, hGates, _, hManifest, _⟩
  have hRegistered := hGates.registered
  unfold SkillRegistry.get at hRegistered
  rw [hManifest]
  change skill.manifest.name = node.skillName
  simpa using List.find?_some hRegistered

theorem mem_newGraph_nodes
    (hNode : node ∈ (newGraph context step calls).nodes) :
    ∃ call ∈ calls, call.callId = node.callId ∧
      call.name = node.skillName := by
  rcases List.mem_mapIdx.mp hNode with ⟨i, hBound, hEq⟩
  exact ⟨calls[i], List.getElem_mem hBound,
    by rw [← hEq]; rfl, by rw [← hEq]; rfl⟩

------------------------------------------------------------
-- Panics That Are Not Reached
------------------------------------------------------------

/- A prepared call without an attempt asks for nothing. -/
theorem runPreparedCall_unattempted
    {prepared : PreparedCall}
    (hZero : prepared.retryPolicy.maxAttempts = 0) :
    ∃ result, runPreparedCall prepared = pure (.ok result) ∧
      result.isOk = false := by
  unfold runPreparedCall
  rw [hZero]
  exact ⟨_, rfl, rfl⟩

/- Only calls that settle with success may have succeeded. -/
theorem avoiding_verdictRules
    (hNodup : (calls.map (·.callId)).Nodup)
    (hNone : NoPanicReached engine context calls panics) :
    VerdictRules (panicking panics)
      (fun _ op => AvoidsPanics panics op) engine context
      (newGraph context step calls)
      (fun status callId => status = .succeeded →
        Settles
          (batchSystem engine context
            (newGraph context step calls).nodes)
          true callId) where
  justified := fun _ _ hOp => avoidsPanics_of_idle hOp.1
  skipped := by
    intro node _ dependency _ status _ _ _ hSucceeded
    cases hSucceeded
  rejected := by
    intro node _ _ _ hSucceeded
    cases hSucceeded
  ran := by
    intro node hNode hSupplied prepared w hPrepared
    have hNodes :
        ((newGraph context step calls).nodes.map
          (·.callId)).Nodup := by
      rw [newGraph_callIds]
      exact hNodup
    by_cases hRunnable : Runnable engine context node
    · have hSettles :
          Settles
            (batchSystem engine context
              (newGraph context step calls).nodes)
            true node.callId :=
        settles_of_unlocked hNodes hNode
          (fun dependency hMem => hSupplied dependency hMem rfl)
          (by simp [hRunnable])
      have hAvoids :
          AvoidsPanics panics
            (.execute prepared.backend prepared.invocation) := by
        rintro backend invocation ⟨⟩ hPanics
        change panics prepared.callId prepared.manifest.name
          at hPanics
        rw [hPrepared.callId, hPrepared.manifest_name]
          at hPanics
        rcases mem_newGraph_nodes hNode with
          ⟨call, hCall, hId, hName⟩
        rw [← hId, ← hName] at hPanics
        rw [← hId] at hSettles
        exact hNone call hCall hPanics hSettles
      refine Safe.mono (fun _ _ h => h) ?_ (fun _ _ _ => trivial)
        ((uses_runPreparedCall (S := AvoidsPanics panics)
          hPrepared hAvoids
          (fun _ => avoidsPanics_of_idle id)).safe
            (I := fun _ => True) (fun _ _ _ h => h)
            (fun _ _ _ _ _ _ => trivial) trivial)
      rintro task _ ⟨hTask, _⟩ result hResult _
      rw [(hTask result hResult).callId]
      exact hSettles
    · have hZero : prepared.retryPolicy.maxAttempts = 0 := by
        by_contra hSome
        exact hRunnable
          (hPrepared.attempts_ne_zero_iff.mp hSome)
      rcases runPreparedCall_unattempted hZero with
        ⟨result, hReturns, hFailed⟩
      rw [hReturns]
      intro other hOther hSucceeded
      cases hOther
      rw [finalStatusForResult_succeeded_iff, hFailed]
        at hSucceeded
      cases hSucceeded

/- A batch that waits is suspended and runs no executor. -/
theorem runBatch_waits
    {M : Machine Op Answer World}
    (hWaits : Waits engine calls approvalOverride) :
    Safe M (fun _ op => ¬op.Executes)
      (fun r _ => ∃ reason pendingCalls resumeToken,
        r = (.suspended reason pendingCalls resumeToken,
          .ok context))
      (fun _ _ => False)
      (runBatch engine context step calls approvalOverride)
      w := by
  have hYes : (!approvalOverride) = true ∧
      approvalCalls engine calls ≠ [] :=
    ⟨by simp [hWaits.1], hWaits.2⟩
  unfold runBatch executePlannedCalls
  rw [if_pos hYes]
  refine ⟨id, ?_⟩
  intro token _
  exact ⟨_, _, _, rfl⟩

/- A batch that reaches no panic avoids them all. -/
theorem runBatch_avoids
    (hRuns : ¬Waits engine calls approvalOverride)
    (hFresh : FreshBatch context step calls w)
    (hNodup : (calls.map (·.callId)).Nodup)
    (hNone : NoPanicReached engine context calls panics) :
    Safe (panicking panics)
      (fun _ op => AvoidsPanics panics op)
      (fun _ _ => True) (fun _ _ => True)
      (runBatch engine context step calls approvalOverride)
      w :=
  Safe.mono (fun _ _ h => h) (fun _ _ _ => trivial)
    (fun _ _ h => h)
    ((avoiding_verdictRules hNodup hNone).runBatch .panicking
      hRuns hFresh)

/- The answers to a batch that avoids the panics are calm. -/
theorem calm_of_avoids
    (w : World)
    (op : Op)
    (a : Answer op)
    (hAvoids : AvoidsPanics panics op)
    (hAllowed : (panicking panics).allowed w op a) :
    Calm op a := by
  rcases hAllowed with ⟨_, hStored, hPanics⟩
  cases op with
  | execute backend invocation =>
      cases a with
      | returned output => exact ⟨output, rfl⟩
      | panicked joinError =>
          exact absurd (hPanics.mpr ⟨joinError, rfl⟩)
            (hAvoids backend invocation rfl)
  | _ => exact hStored

theorem not_panicsIn
    {α : Type}
    {p : EngineM α}
    {steps : List (Step Op Answer World)}
    {r : Option (Except EngineError α)}
    (hExec : Exec (host.restrict fun _ op a => Calm op a) w p
      steps w' r) :
    ∀ s ∈ steps, ∀ callId, ¬PanicsIn s callId := by
  rintro s hMem callId
    ⟨before, backend, invocation, joinError, hEq, _⟩
  have hCalm := (hExec.allowed s hMem).2
  rw [hEq] at hCalm
  rcases hCalm with ⟨output, hReturned⟩
  cases hReturned

/- Panics that are not reached are survived. -/
theorem survivesPanics_of
    {steps : List (Step Op Answer World)}
    {r : Except EngineError
      (BatchExecution × Except MemoryError AgentContext)}
    (hFresh : FreshBatch context step calls w)
    (hCondition : Waits engine calls approvalOverride ∨
      Settleable engine context calls ∧
        NoPanicReached engine context calls panics)
    (hExec : Exec (panicking panics) w
      (runBatch engine context step calls approvalOverride)
      steps w' (some r)) :
    SurvivesPanics calls
      (graphIdFor context.metadata.triggerId step) w steps w'
      r := by
  by_cases hWaits : Waits engine calls approvalOverride
  · have hIdle : Safe (panicking panics)
        (fun _ op => ¬op.Executes)
        (fun r _ => ∃ reason pendingCalls resumeToken,
          r = (.suspended reason pendingCalls resumeToken,
            .ok context))
        (fun _ _ => False)
        (runBatch engine context step calls approvalOverride)
        w :=
      runBatch_waits hWaits
    have hNever : ∀ s ∈ steps, ∀ callId,
        ¬PanicsIn s callId := by
      rintro s hMem callId
        ⟨before, backend, invocation, joinError, hEq, _⟩
      have hOther := hIdle.steps hExec s hMem
      rw [hEq] at hOther
      exact hOther trivial
    cases r with
    | error e => exact ((hIdle.result hExec).2 e rfl).elim
    | ok ran =>
        rcases hIdle.returns hExec with
          ⟨reason, pendingCalls, resumeToken, hEq⟩
        subst hEq
        exact
          { returns := ⟨_, context, rfl⟩
            completes := by
              intro batch context' hExecuted
              cases hExecuted
            failed := fun s hMem callId hPanics =>
              absurd hPanics (hNever s hMem callId)
            notAgain := fun s hMem callId hPanics =>
              absurd hPanics (hNever s hMem callId) }
  · rcases hCondition with hYes | ⟨hSettleable, hNone⟩
    · exact absurd hYes hWaits
    have hCalm :
        Exec (host.restrict fun _ op a => Calm op a) w
          (runBatch engine context step calls
            approvalOverride) steps w' (some r) :=
      (runBatch_avoids hWaits hFresh hSettleable.nodup
        hNone).exec_mono rfl
          (fun w op a hAvoids hAllowed =>
            ⟨hAllowed.1,
              calm_of_avoids w op a hAvoids hAllowed⟩)
          hExec
    have hNever := not_panicsIn hCalm
    have hReturns :=
      (runBatch_calm (C := fun _ op a => Calm op a)
        (fun _ _ _ h => h) hWaits).result hCalm
    constructor
    · cases r with
      | error e => exact (hReturns.2 e rfl).elim
      | ok ran =>
          rcases hReturns.1 ran rfl with
            ⟨batch, context', hEq⟩
          exact ⟨_, context', by rw [hEq]⟩
    · intro batch context' hEq
      subst hEq
      exact (completesBatch_of_settleable hWaits hFresh
        hSettleable).returns hCalm.of_restrict batch context'
          rfl
    · intro s hMem callId hPanics
      exact absurd hPanics (hNever s hMem callId)
    · intro s hMem callId hPanics
      exact absurd hPanics (hNever s hMem callId)

------------------------------------------------------------
-- Panics That Are Reached
------------------------------------------------------------

/- An executor that returns succeeds. -/
def ReturnsNull : (op : Op) → Answer op → Prop
| .execute _ _, a =>
    ∀ output, a = .returned output → output = .ok .null
| _, _ => True

/- Every executor that does not panic succeeds. -/
def succeedsOrPanics
    (panics : String → String → Prop) :
    Machine Op Answer World :=
  (panicking panics).restrict fun _ op a => ReturnsNull op a

theorem OnHost.succeedsOrPanics :
    OnHost (succeedsOrPanics panics) where
  next := rfl
  allowed := fun _ _ _ h => h.1.1

theorem exists_succeedsOrPanics_answer
    (w : World)
    (op : Op)
    (hFuel : op ≠ .outOfFuel) :
    ∃ a, (succeedsOrPanics panics).allowed w op a := by
  cases op with
  | execute backend invocation =>
      by_cases hPanics :
          panics invocation.callId invocation.manifest.name
      · refine ⟨.panicked "", ⟨trivial, trivial, ?_⟩, nofun⟩
        simp [PanicsAs, hPanics]
      · refine ⟨.returned (.ok .null),
          ⟨trivial, trivial, ?_⟩, ?_⟩
        · simp [PanicsAs, hPanics]
        · rintro output ⟨⟩
          rfl
  | outOfFuel => exact absurd rfl hFuel
  | _ =>
      rcases exists_calm_answer w _ hFuel with
        ⟨a, hAllowed, hCalm⟩
      exact ⟨a, ⟨hAllowed, hCalm.storeAnswered, trivial⟩,
        trivial⟩

/- A call that is attempted panics or succeeds. -/
theorem runAttempts_succeedsOrPanics
    {prepared : PreparedCall}
    {remaining interval : Nat}
    {output : Except SkillExecutionError Json} :
    Safe (succeedsOrPanics panics) (fun _ _ => True)
      (fun final _ => ∀ output', final = .ok output' →
        if remaining = 0 then output' = output
        else output' = .ok .null ∧
          ¬panics prepared.callId prepared.manifest.name)
      (fun _ _ => True)
      (runAttempts prepared remaining interval output)
      w := by
  cases remaining with
  | zero =>
      rintro output' ⟨⟩
      exact rfl
  | succ remaining =>
      refine ⟨trivial, ?_⟩
      rintro answer ⟨⟨_, _, hPanics⟩, hNull⟩
      cases answer with
      | panicked joinError =>
          rintro output' ⟨⟩
      | returned output =>
          have hOutput : output = .ok .null := hNull _ rfl
          subst hOutput
          rintro output' ⟨⟩
          refine ⟨rfl, ?_⟩
          intro hYes
          rcases hPanics.mp hYes with ⟨_, hEq⟩
          cases hEq

theorem runPreparedCall_succeedsOrPanics
    {prepared : PreparedCall}
    (hPrepared : PreparedFor engine context node prepared) :
    Safe (succeedsOrPanics panics) (fun _ _ => True)
      (fun task _ => ∀ result, task = .ok result →
        result.callId = node.callId ∧
        (result.isOk = true ↔ Runnable engine context node) ∧
        (result.isOk = true →
          ¬panics node.callId node.skillName))
      (fun _ _ => True) (runPreparedCall prepared) w := by
  rw [← hPrepared.attempts_ne_zero_iff,
    ← hPrepared.manifest_name, ← hPrepared.callId]
  unfold runPreparedCall
  refine Safe.bind runAttempts_succeedsOrPanics ?_
  intro final w' hFinal
  cases final with
  | error joinError =>
      rintro result ⟨⟩
  | ok output =>
      have hOutput := hFinal output rfl
      rintro result ⟨⟩
      by_cases hZero : prepared.retryPolicy.maxAttempts = 0
      · rw [if_pos hZero] at hOutput
        subst hOutput
        simp [hZero, ToolResultRecord.isOk]
      · rw [if_neg hZero] at hOutput
        rcases hOutput with ⟨hNull, hNo⟩
        subst hNull
        simp [hZero, hNo, ToolResultRecord.isOk]

/- A verdict under which a call with success has not panicked. -/
def PanicVerdict
    (engine : AgentEngine)
    (context : AgentContext)
    (graph : ToolExecutionGraph)
    (panics : String → String → Prop)
    (status : ToolNodeStatus)
    (callId : String) :
    Prop :=
  Settles (batchSystem engine context graph.nodes)
    (decide (status = .succeeded)) callId ∧
  (status = .succeeded → ∀ node ∈ graph.nodes,
    node.callId = callId →
      ¬panics node.callId node.skillName)

theorem succeedsOrPanics_verdictRules
    (hNodup : (graph.nodes.map (·.callId)).Nodup) :
    VerdictRules (succeedsOrPanics panics) (fun _ _ => True)
      engine context graph
      (PanicVerdict engine context graph panics) where
  justified := fun _ _ _ => trivial
  skipped := by
    intro node hNode dependency hMem status _ hFailed hBlocked
    have hFalse := hBlocked.1
    rw [decide_eq_false hFailed] at hFalse
    exact ⟨.blocked (List.mem_map_of_mem hNode)
      ⟨node, hNode, rfl, List.mem_map_of_mem hMem⟩ hFalse,
      nofun⟩
  rejected := by
    intro node hNode hSupplied hRejected
    refine ⟨?_, nofun⟩
    apply settles_of_unlocked hNodup hNode
      (fun dependency hMem => (hSupplied dependency hMem).1)
    constructor
    · nofun
    · rintro ⟨skill, hGates, _⟩
      exact absurd hGates (hRejected skill)
  ran := by
    intro node hNode hSupplied prepared w hPrepared
    refine Safe.mono (fun _ _ h => h) ?_ (fun _ _ h => h)
      (runPreparedCall_succeedsOrPanics hPrepared)
    intro task _ hTask result hResult
    rcases hTask result hResult with ⟨hId, hOk, hNo⟩
    rw [hId]
    refine ⟨?_, ?_⟩
    · apply settles_of_unlocked hNodup hNode
        (fun dependency hMem => (hSupplied dependency hMem).1)
      rw [decide_eq_true_eq,
        finalStatusForResult_succeeded_iff]
      exact hOk
    · intro hSucceeded other hOther hSame
      have hEq := List.inj_on_of_nodup_map hNodup hOther hNode
        hSame
      rw [hEq]
      exact hNo
        ((finalStatusForResult_succeeded_iff _).mp hSucceeded)

/-
  A batch that survives its panics settles and does not reach
  any of them.
-/
theorem unreached_of_survives
    (hRuns : ¬Waits engine calls approvalOverride)
    (hFresh : FreshBatch context step calls w)
    (hSurvives : ∀ steps w' r,
      Exec (panicking panics) w
        (runBatch engine context step calls approvalOverride)
        steps w' (some r) →
        SurvivesPanics calls
          (graphIdFor context.metadata.triggerId step) w steps
          w' r) :
    Settleable engine context calls ∧
      NoPanicReached engine context calls panics := by
  have hEnds : Safe (succeedsOrPanics panics)
      (fun _ op => op ≠ .outOfFuel)
      (fun _ _ => True) (fun _ _ => True)
      (runBatch engine context step calls approvalOverride)
      w :=
    (runBatch_ends hRuns).restrict.restrict
  rcases hEnds.exists_exec
    (fun w op hFuel =>
      exists_succeedsOrPanics_answer w op hFuel) with
      ⟨steps, w', r, hExec⟩
  have hDone := hSurvives steps w' r hExec.of_restrict
  rcases hDone.returns with ⟨execution, context', hEq⟩
  subst hEq
  have hHost : Exec host w
      (runBatch engine context step calls approvalOverride)
      steps w' (some (.ok (execution, .ok context'))) :=
    hExec.of_restrict.of_restrict
  rcases (runBatch_recorded hRuns hFresh).returns hHost with
    ⟨batch, hBatch, hStored⟩
  dsimp only at hBatch
  subst hBatch
  have hCompletes := hDone.completes batch context' rfl
  rcases hStored context' rfl with ⟨added, hRecorded⟩
  have hNodup := hRecorded.nodup_of_inactive hFresh hCompletes
  have hNodes :
      ((newGraph context step calls).nodes.map
        (·.callId)).Nodup := by
    rw [newGraph_callIds]
    exact hNodup
  have hVerdicts :=
    ((succeedsOrPanics_verdictRules hNodes).runBatch
      .succeedsOrPanics hRuns hFresh).returns hExec
  have hReported := hCompletes.reported
  rw [hRecorded.toolResults_drop] at hReported
  have hResults : ∀ call ∈ calls, ∃ status,
      PanicVerdict engine context
        (newGraph context step calls) panics status
        call.callId := by
    intro call hCall
    have hMem :
        call.callId ∈ batch.results.map (·.callId) :=
      hReported.mem_iff.mpr (List.mem_map_of_mem hCall)
    rcases List.mem_map.mp hMem with ⟨result, hResult, hId⟩
    rcases hVerdicts result hResult with ⟨status, hVerdict, _⟩
    rw [hId] at hVerdict
    exact ⟨status, hVerdict⟩
  refine ⟨⟨hNodup, ?_⟩, ?_⟩
  · intro call hCall
    rcases hResults call hCall with ⟨status, hSettles, _⟩
    exact ⟨_, hSettles⟩
  · intro call hCall hPanics hSettles
    rcases hResults call hCall with ⟨status, hStatus, hNo⟩
    have hTrue := hStatus.unique hSettles
    rw [decide_eq_true_eq] at hTrue
    rcases List.mem_iff_getElem.mp hCall with
      ⟨i, hBound, hGet⟩
    refine hNo hTrue _
      (List.mem_mapIdx.mpr ⟨i, hBound, rfl⟩) ?_ ?_
    · rw [hGet]
      rfl
    · rw [hGet]
      exact hPanics

end Panics

/-
  A fresh batch survives the panics of its calls exactly when
  it waits for approval first, or its dependencies settle every
  call and none that panics with success.
-/
theorem survivesPanics_iff
    (engine : AgentEngine)
    (context : AgentContext)
    (step : Nat)
    (calls : List PlannedSkillCall)
    (approvalOverride : Bool)
    (panics : String → String → Prop)
    (w : World)
    (hFresh : FreshBatch context step calls w) :
    (∀ steps w' r,
      Exec (panicking panics) w
        (runBatch engine context step calls approvalOverride)
        steps w' (some r) →
        SurvivesPanics calls
          (graphIdFor context.metadata.triggerId step) w steps
          w' r) ↔
      (Waits engine calls approvalOverride ∨
        Settleable engine context calls ∧
          NoPanicReached engine context calls panics) := by
  constructor
  · intro hSurvives
    by_cases hWaits : Waits engine calls approvalOverride
    · exact .inl hWaits
    · exact .inr
        (unreached_of_survives hWaits hFresh hSurvives)
  · intro hCondition steps w' r hExec
    exact survivesPanics_of hFresh hCondition hExec

------------------------------------------------------------
-- One Call That Panics
------------------------------------------------------------

namespace Sample

/- A plain call, and a call of a skill nobody registered. -/
def unregisteredCalls : List PlannedSkillCall :=
  [call "a" .null, { call "b" .null with name := "missing" }]

theorem unregistered_unreached :
    NoPanicReached engine firstContext unregisteredCalls
      fun _ name => name = "missing" := by
  intro call hCall hName hSettles
  cases hSettles with
  | succeeds _ hWorks _ =>
      rcases hWorks with ⟨node, hNode, hId, skill, hGates, _⟩
      have hCalls : call.callId = "b" := by
        rcases List.mem_pair.mp hCall with hEq | hEq
        · rw [hEq] at hName
          exact absurd hName (by decide)
        · rw [hEq]
          rfl
      rw [hCalls] at hId
      have hSkill : node.skillName = "missing" := by
        have hAll : ∀ n ∈ unregisteredCalls.mapIdx
            PlannedSkillCall.toNode,
            n.callId = "b" → n.skillName = "missing" := by
          decide
        exact hAll node hNode hId
      have hRegistered := hGates.registered
      rw [hSkill] at hRegistered
      cases hRegistered

end Sample

/- A call that is not registered cannot panic. -/
theorem survivesPanics_unregistered :
    NoPanicReached Sample.engine firstContext
        Sample.unregisteredCalls
        (fun _ name => name = "missing") ∧
      ∀ steps w' r,
        Exec (panicking fun _ name => name = "missing")
          (World.empty "session")
          (runBatch Sample.engine firstContext 0
            Sample.unregisteredCalls false) steps w'
          (some r) →
          SurvivesPanics Sample.unregisteredCalls
            (graphIdFor firstContext.metadata.triggerId 0)
            (World.empty "session") steps w' r :=
  ⟨Sample.unregistered_unreached,
    (survivesPanics_iff Sample.engine firstContext 0
      Sample.unregisteredCalls false
      (fun _ name => name = "missing")
      (World.empty "session") (freshBatch_first 0 _)).mpr
        (.inr ⟨settleable_of_rank (fun _ => 0) (by decide)
          (by decide), Sample.unregistered_unreached⟩)⟩

namespace Sample

/- A host whose executor panics. -/
def panics : Script where
  decision _ := { action := .respond "done" }
  skill _ := .panicked "task panicked"

/- A batch of one call, on that host. -/
def panickedBatch :
    List (Step Op Answer World) × World ×
      Option (Except EngineError
        (BatchExecution × Except MemoryError AgentContext)) :=
  (runBatch engine firstContext 0 [call "a" .null] false).run
    (panicking fun _ _ => True) panics.answer
    (World.empty "session")

theorem panics_allowed
    (w : World)
    (op : Op)
    (a : Answer op)
    (hAnswer : panics.answer w op = some a) :
    (panicking fun _ _ => True).allowed w op a := by
  have hReliable := Script.answer_allowed hAnswer
  refine ⟨hReliable.1, hReliable.2, ?_⟩
  cases op with
  | execute backend invocation =>
      cases hAnswer
      exact ⟨fun _ => ⟨_, rfl⟩, fun _ => trivial⟩
  | _ => trivial

end Sample

set_option maxRecDepth 100000 in
/-
  The panic of a call is the error of the batch. The call gets
  no terminal checkpoint.
-/
theorem panickedBatch_not_survived :
    ¬(∀ steps w' r,
      Exec (panicking fun _ _ => True)
        (World.empty "session")
        (runBatch Sample.engine firstContext 0
          [Sample.call "a" .null] false) steps w' (some r) →
        SurvivesPanics [Sample.call "a" .null]
          (graphIdFor firstContext.metadata.triggerId 0)
          (World.empty "session") steps w' r) := by
  intro hSurvives
  have hResult : Sample.panickedBatch.2.2 =
      some (.error (.blob "task panicked")) := by
    rfl
  have hExec : Exec (panicking fun _ _ => True)
      (World.empty "session")
      (runBatch Sample.engine firstContext 0
        [Sample.call "a" .null] false)
      Sample.panickedBatch.1 Sample.panickedBatch.2.1
      Sample.panickedBatch.2.2 :=
    Program.run_exec Sample.panics_allowed _ _
  rw [hResult] at hExec
  rcases (hSurvives _ _ _ hExec).returns with
    ⟨execution, context', hEq⟩
  cases hEq

end RainEngine
