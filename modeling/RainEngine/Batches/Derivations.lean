import RainEngine.Batches.Results
import RainEngine.Batches.Verdicts
import RainEngine.Dependencies.Cascade

/-
  This file reads a batch as a system of dependencies. A batch
  that has come to its end has decided every call that settles
  in the system, and where every executor succeeds it has
  decided no other.

  Key definitions include:
    * `batchSystem`
    * `Settleable`
    * `successIn`
    * `happy`

  Key theorems include:
    * `BatchReport.settled_of_settleable`
    * `happy_verdictRules`
-/

namespace RainEngine

open Effects
open Dependencies (Settles)

------------------------------------------------------------
-- Batches That Settle
------------------------------------------------------------

/-
  The dependency system of a list of nodes. A call works when
  its node passes the gates with an attempt left.
-/
def batchSystem
    (engine : AgentEngine)
    (context : AgentContext)
    (nodes : List ToolNode) :
    Dependencies.System String where
  member callId := callId ∈ nodes.map (·.callId)
  works callId :=
    ∃ node ∈ nodes, node.callId = callId ∧
      Runnable engine context node
  needs callId needed :=
    ∃ node ∈ nodes, node.callId = callId ∧
      needed ∈ node.dependencies.map (·.callId)

/- The call ids are distinct and every call settles. -/
structure Settleable
    (engine : AgentEngine)
    (context : AgentContext)
    (calls : List PlannedSkillCall) : Prop where
  nodup : (calls.map (·.callId)).Nodup
  settles :
    ∀ call ∈ calls, ∃ succeeds,
      Settles
        (batchSystem engine context
          (calls.mapIdx PlannedSkillCall.toNode))
        succeeds call.callId

section Settling

variable {engine : AgentEngine}
variable {context : AgentContext}
variable {graph : ToolExecutionGraph}
variable {entry : StatusMap}
variable {w : World}
variable {batch : ExecutedBatch}

/- Whether each call of a graph is known to have succeeded. -/
def successIn
    (graph : ToolExecutionGraph)
    (w : World)
    (callId : String) :
    Option Bool :=
  (settledIn graph w callId).map
    (fun status => decide (status = .succeeded))

theorem successIn_eq_none_iff
    {callId : String} :
    successIn graph w callId = none ↔
      settledIn graph w callId = none := by
  simp [successIn]

theorem successIn_eq_true_iff
    {callId : String} :
    successIn graph w callId = some true ↔
      settledIn graph w callId = some .succeeded := by
  simp [successIn]

/- A call that is settled without success blocks others. -/
theorem successIn_false_blocks
    {callId : String}
    (hFalse : successIn graph w callId = some false) :
    settledIn graph w callId = some .failed ∨
      settledIn graph w callId = some .skipped ∨
      settledIn graph w callId = some .timedOut := by
  unfold successIn at hFalse
  rw [Option.map_eq_some_iff] at hFalse
  rcases hFalse with ⟨status, hStatus, hNot⟩
  have hTerminal := settledStatus_isTerminal hStatus
  rw [hStatus]
  cases status with
  | succeeded => simp at hNot
  | failed => exact .inl rfl
  | skipped => exact .inr (.inl rfl)
  | timedOut => exact .inr (.inr rfl)
  | _ => cases hTerminal

theorem BatchReport.honest
    (hNodup : (graph.nodes.map (·.callId)).Nodup)
    (hReport : BatchReport engine context graph
      (fun _ => none) w batch) :
    Dependencies.Honest
      (batchSystem engine context graph.nodes)
      (successIn graph w) := by
  intro callId hTrue
  have hSucceeded := successIn_eq_true_iff.mp hTrue
  rcases hReport.earned callId rfl hSucceeded with
    ⟨node, hNode, hId, hRunnable, hDependencies⟩
  refine ⟨⟨node, hNode, hId, hRunnable⟩, ?_⟩
  rintro needed ⟨other, hOther, hOtherId, hNeeds⟩
  have hSame : other = node :=
    List.inj_on_of_nodup_map hNodup hOther hNode
      (hOtherId.trans hId.symm)
  subst hSame
  rcases List.mem_map.mp hNeeds with ⟨dependency, hMem, hEq⟩
  subst hEq
  exact successIn_eq_true_iff.mpr
    (hDependencies dependency hMem)

theorem BatchReport.quiet
    (hNodup : (graph.nodes.map (·.callId)).Nodup)
    (hReport : BatchReport engine context graph entry w
      batch) :
    Dependencies.Quiet
      (batchSystem engine context graph.nodes)
      (successIn graph w) := by
  intro callId hMember hOpen
  rw [successIn_eq_none_iff] at hOpen
  rcases List.mem_map.mp hMember with ⟨node, hNode, hId⟩
  subst hId
  rcases hReport.quiescent node hNode with
    hTerminal | ⟨hBlocking, hNotReady⟩
  · rw [hOpen] at hTerminal
    cases hTerminal
  · constructor
    · rintro needed ⟨other, hOther, hOtherId, hNeeds⟩ hFalse
      have hSame : other = node :=
        List.inj_on_of_nodup_map hNodup hOther hNode hOtherId
      subst hSame
      rcases List.mem_map.mp hNeeds with
        ⟨dependency, hMem, hEq⟩
      subst hEq
      unfold blockingDependency at hBlocking
      have hNone := List.find?_eq_none.mp hBlocking
        dependency hMem
      have hBlocks := successIn_false_blocks hFalse
      simp [hBlocks] at hNone
    · unfold ToolNode.isReady at hNotReady
      have hAll :
          ¬∀ dependency ∈ node.dependencies,
            settledIn graph w dependency.callId =
              some .succeeded := by
        intro hEvery
        have hTrue : (node.dependencies.all fun dependency =>
            decide (settledIn graph w dependency.callId =
              some .succeeded)) = true := by
          simpa using hEvery
        rw [hTrue, hOpen] at hNotReady
        cases hNotReady
      push Not at hAll
      rcases hAll with ⟨dependency, hMem, hNot⟩
      refine ⟨dependency.callId, ?_, ?_⟩
      · exact ⟨node, hNode, rfl, List.mem_map_of_mem hMem⟩
      · intro hTrue
        exact hNot (successIn_eq_true_iff.mp hTrue)

/- In a batch that settles every call has been settled. -/
theorem BatchReport.settled_of_settleable
    {step : Nat}
    {calls : List PlannedSkillCall}
    (hReport : BatchReport engine context
      (newGraph context step calls) (fun _ => none) w batch)
    (hSettleable : Settleable engine context calls) :
    ∀ callId ∈ calls.map (·.callId),
      settledIn (newGraph context step calls) w callId ≠
        none := by
  intro callId hMem
  rcases List.mem_map.mp hMem with ⟨call, hCall, hId⟩
  subst hId
  rcases hSettleable.settles call hCall with
    ⟨succeeds, hSettles⟩
  have hNodup :
      ((newGraph context step calls).nodes.map
        (·.callId)).Nodup := by
    rw [newGraph_callIds]
    exact hSettleable.nodup
  have hDecided := Settles.decided
    (hReport.honest hNodup) (hReport.quiet hNodup) hSettles
  exact fun hNone =>
    hDecided.1 (successIn_eq_none_iff.mpr hNone)

end Settling

------------------------------------------------------------
-- Runs In Which Every Executor Succeeds
------------------------------------------------------------

/- Every executor that is run succeeds. -/
def Succeeds : (op : Op) → Answer op → Prop
| .execute _ _, a => a = .returned (.ok .null)
| _, _ => True

/- A calm host on which every executor succeeds. -/
def happy : Machine Op Answer World :=
  host.restrict fun _ op a => Calm op a ∧ Succeeds op a

theorem OnHost.happy : OnHost happy where
  next := rfl
  allowed := fun _ _ _ h => h.1

theorem exists_happy_answer
    (w : World)
    (op : Op)
    (hFuel : op ≠ .outOfFuel) :
    ∃ a, happy.allowed w op a := by
  cases op with
  | execute backend invocation =>
      exact ⟨.returned (.ok .null), trivial, ⟨_, rfl⟩, rfl⟩
  | outOfFuel => exact absurd rfl hFuel
  | _ =>
      rcases exists_calm_answer w _ hFuel with
        ⟨a, hAllowed, hCalm⟩
      exact ⟨a, hAllowed, hCalm, trivial⟩

section Happy

variable {engine : AgentEngine}
variable {context : AgentContext}
variable {graph : ToolExecutionGraph}
variable {state : BatchState}
variable {node : ToolNode}
variable {w : World}

/- An unlocked node settles as its gates let it. -/
theorem settles_of_unlocked
    {b : Bool}
    (hNodup : (graph.nodes.map (·.callId)).Nodup)
    (hNode : node ∈ graph.nodes)
    (hUnlocked :
      ∀ dependency ∈ node.dependencies,
        Settles (batchSystem engine context graph.nodes) true
          dependency.callId)
    (hRunnable : b = true ↔ Runnable engine context node) :
    Settles (batchSystem engine context graph.nodes) b
      node.callId := by
  have hMember :
      (batchSystem engine context graph.nodes).member
        node.callId :=
    List.mem_map_of_mem hNode
  have hNeeds : ∀ needed,
      (batchSystem engine context graph.nodes).needs
          node.callId needed →
        Settles (batchSystem engine context graph.nodes)
          true needed := by
    rintro needed ⟨other, hOther, hId, hNeeded⟩
    have hSame := List.inj_on_of_nodup_map hNodup hOther
      hNode hId
    subst hSame
    rcases List.mem_map.mp hNeeded with
      ⟨dependency, hMem, hEq⟩
    subst hEq
    exact hUnlocked dependency hMem
  cases b with
  | true =>
      exact .succeeds hMember
        ⟨node, hNode, rfl, hRunnable.mp rfl⟩ hNeeds
  | false =>
      refine .fails hMember ?_ hNeeds
      rintro ⟨other, hOther, hId, hWorks⟩
      have hSame := List.inj_on_of_nodup_map hNodup hOther
        hNode hId
      subst hSame
      exact absurd (hRunnable.mpr hWorks) nofun

theorem runAttempts_happy
    {prepared : PreparedCall}
    {remaining interval : Nat}
    {output : Except SkillExecutionError Json} :
    Safe happy (fun _ _ => True)
      (fun final _ => final =
        if remaining = 0 then .ok output
        else .ok (.ok .null))
      (fun _ _ => True)
      (runAttempts prepared remaining interval output)
      w := by
  cases remaining with
  | zero => exact rfl
  | succ remaining =>
      refine ⟨trivial, ?_⟩
      intro answer hAllowed
      have hAnswer : answer = .returned (.ok .null) :=
        hAllowed.2.2
      subst hAnswer
      exact rfl

/- A task succeeds when its node is runnable. -/
theorem runPreparedCall_happy
    {prepared : PreparedCall}
    (hPrepared : PreparedFor engine context node prepared) :
    Safe happy (fun _ _ => True)
      (fun task _ => ∃ result, task = .ok result ∧
        result.callId = node.callId ∧
        (result.isOk = true ↔ Runnable engine context node))
      (fun _ _ => True) (runPreparedCall prepared) w := by
  have hAttempts := hPrepared.attempts_ne_zero_iff
  unfold runPreparedCall
  refine Safe.bind runAttempts_happy ?_
  intro output w' hOutput
  by_cases hZero : prepared.retryPolicy.maxAttempts = 0
  · rw [if_pos hZero] at hOutput
    subst hOutput
    refine ⟨_, rfl, hPrepared.callId, ?_⟩
    rw [← hAttempts]
    simp [hZero, ToolResultRecord.isOk]
  · rw [if_neg hZero] at hOutput
    subst hOutput
    refine ⟨_, rfl, hPrepared.callId, ?_⟩
    rw [← hAttempts]
    simp [hZero, ToolResultRecord.isOk]

/- Where every executor succeeds calls settle as derived. -/
theorem happy_verdictRules
    (hNodup : (graph.nodes.map (·.callId)).Nodup) :
    VerdictRules happy (fun _ _ => True) engine context graph
      (fun status callId =>
        Settles (batchSystem engine context graph.nodes)
          (decide (status = .succeeded)) callId) where
  justified := fun _ _ _ => trivial
  skipped := by
    intro node hNode dependency hMem status _ hFailed hBlocked
    rw [decide_eq_false hFailed] at hBlocked
    exact .blocked (List.mem_map_of_mem hNode)
      ⟨node, hNode, rfl, List.mem_map_of_mem hMem⟩ hBlocked
  rejected := by
    intro node hNode hSupplied hRejected
    apply settles_of_unlocked hNodup hNode hSupplied
    constructor
    · nofun
    · rintro ⟨skill, hGates, _⟩
      exact absurd hGates (hRejected skill)
  ran := by
    intro node hNode hSupplied prepared w hPrepared
    refine Safe.mono (fun _ _ h => h) ?_ (fun _ _ h => h)
      (runPreparedCall_happy hPrepared)
    rintro _ _ ⟨result, hTask, hId, hOk⟩ reported hEq
    rw [hTask] at hEq
    cases hEq
    rw [hId]
    apply settles_of_unlocked hNodup hNode hSupplied
    rw [decide_eq_true_eq, finalStatusForResult_succeeded_iff]
    exact hOk

end Happy

end RainEngine
