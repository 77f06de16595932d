import RainEngine.Batches.Derivations

/-
  This file proves that the dependencies of a graph and the
  results of its calls alone decide how each call ends. What
  remains open when nothing more can be done is open however
  the calls were scheduled.

  Key definitions include:
    * `CallResults`
    * `Verdict`
    * `SameGates`
    * `Sound`

  Key theorems include:
    * `Verdict.unique`
    * `Verdict.congr`
    * `Sound.settled_iff`
    * `steady_verdictRules`
-/

namespace RainEngine

open Effects

------------------------------------------------------------
-- Verdicts Of A Graph
------------------------------------------------------------

/- The result of each call, which depends on the call only. -/
def CallResults : Type :=
  (callId skillName : String) → (args : Json) →
    (dryRun : Bool) → Except SkillExecutionError Json

/- The result a prepared call comes back with. -/
def PreparedCall.resultWith
    (prepared : PreparedCall)
    (results : CallResults) :
    ToolResultRecord where
  callId := prepared.callId
  skillName := prepared.name
  output :=
    let output :=
      if prepared.retryPolicy.maxAttempts = 0 then
        .error
          { kind := .internal
            message := "tool was not attempted" }
      else
        results prepared.callId prepared.manifest.name
          prepared.args prepared.dryRun
    match output with
    | .ok value => .ok value
    | .error error =>
        .error { kind := error.kind, message := error.message }

/-
  How a call ends when every call returns the given results,
  whatever the order in which they run.
-/
inductive Verdict
    (engine : AgentEngine)
    (context : AgentContext)
    (graph : ToolExecutionGraph)
    (results : CallResults) :
    ToolNodeStatus → String → Prop where
  | skipped
      {node : ToolNode}
      {dependency : ToolDependency}
      {status : ToolNodeStatus}
      (hNode : node ∈ graph.nodes)
      (hMem : dependency ∈ node.dependencies)
      (hFailed : status ≠ .succeeded)
      (hBlocked :
        Verdict engine context graph results status
          dependency.callId) :
      Verdict engine context graph results .skipped
        node.callId
  | rejected
      {node : ToolNode}
      (hNode : node ∈ graph.nodes)
      (hSupplied : ∀ dependency ∈ node.dependencies,
        Verdict engine context graph results .succeeded
          dependency.callId)
      (hRejected :
        ∀ skill, ¬PassesGates engine context node skill) :
      Verdict engine context graph results .failed
        node.callId
  | ran
      {node : ToolNode}
      {prepared : PreparedCall}
      (hNode : node ∈ graph.nodes)
      (hSupplied : ∀ dependency ∈ node.dependencies,
        Verdict engine context graph results .succeeded
          dependency.callId)
      (hPrepared :
        PreparedFor engine context node prepared) :
      Verdict engine context graph results
        (finalStatusForResult (prepared.resultWith results))
        node.callId

/-
  Two contexts that differ in the limits on parallel calls only,
  as far as the gates of a node go.
-/
structure SameGates
    (context context' : AgentContext) : Prop where
  scopes : context'.grantedScopes = context.grantedScopes
  policy :
    ∃ parallel ready, context'.metadata.policy =
      { context.metadata.policy with
        maxParallelSkillCalls := parallel
        maxReadyToolNodes := ready }
  toolResults :
    toolResults context'.records = toolResults context.records

section Verdicts

variable {engine : AgentEngine}
variable {context context' : AgentContext}
variable {graph : ToolExecutionGraph}
variable {results : CallResults}
variable {node : ToolNode}
variable {prepared prepared' : PreparedCall}

/- A node is prepared for one result only. -/
theorem PreparedFor.resultWith_eq
    (hPrepared : PreparedFor engine context node prepared)
    (hOther : PreparedFor engine context node prepared') :
    prepared.resultWith results =
      prepared'.resultWith results := by
  rcases hPrepared.gates with
    ⟨skill, hGates, _, hManifest, hRetry⟩
  rcases hOther.gates with
    ⟨other, hGates', _, hManifest', hRetry'⟩
  have hSkill : skill = other :=
    Option.some.inj
      (hGates.registered.symm.trans hGates'.registered)
  subst hSkill
  unfold PreparedCall.resultWith
  rw [hPrepared.callId, hPrepared.name, hPrepared.args,
    hPrepared.dryRun, hManifest, hRetry, hOther.callId,
    hOther.name, hOther.args, hOther.dryRun, hManifest',
    hRetry']

theorem eq_of_callId
    {other : ToolNode}
    (hNodup : (graph.nodes.map (·.callId)).Nodup)
    (hNode : node ∈ graph.nodes)
    (hOther : other ∈ graph.nodes)
    (hSame : other.callId = node.callId) :
    other = node :=
  List.inj_on_of_nodup_map hNodup hOther hNode hSame

/- A call ends in one way only. -/
theorem Verdict.unique
    {status status' : ToolNodeStatus}
    {callId : String}
    (hNodup : (graph.nodes.map (·.callId)).Nodup)
    (hVerdict :
      Verdict engine context graph results status callId)
    (hOther :
      Verdict engine context graph results status' callId) :
    status = status' := by
  induction hVerdict generalizing status' with
  | @skipped node dependency status hNode hMem hFailed
      hBlocked ih =>
      generalize hId : node.callId = callId at hOther
      cases hOther with
      | skipped => rfl
      | rejected hNode' hSupplied _ =>
          have hSame := eq_of_callId hNodup hNode hNode'
            hId.symm
          subst hSame
          exact absurd (ih (hSupplied _ hMem)) hFailed
      | ran hNode' hSupplied _ =>
          have hSame := eq_of_callId hNodup hNode hNode'
            hId.symm
          subst hSame
          exact absurd (ih (hSupplied _ hMem)) hFailed
  | @rejected node hNode hSupplied hRejected ih =>
      generalize hId : node.callId = callId at hOther
      cases hOther with
      | skipped hNode' hMem hFailed hBlocked =>
          have hSame := eq_of_callId hNodup hNode hNode'
            hId.symm
          subst hSame
          exact absurd (ih _ hMem hBlocked).symm hFailed
      | rejected => rfl
      | ran hNode' _ hPrepared =>
          have hSame := eq_of_callId hNodup hNode hNode'
            hId.symm
          subst hSame
          rcases hPrepared.gates with ⟨skill, hGates, _⟩
          exact absurd hGates (hRejected skill)
  | @ran node prepared hNode hSupplied hPrepared ih =>
      generalize hId : node.callId = callId at hOther
      cases hOther with
      | skipped hNode' hMem hFailed hBlocked =>
          have hSame := eq_of_callId hNodup hNode hNode'
            hId.symm
          subst hSame
          exact absurd (ih _ hMem hBlocked).symm hFailed
      | rejected hNode' _ hRejected =>
          have hSame := eq_of_callId hNodup hNode hNode'
            hId.symm
          subst hSame
          rcases hPrepared.gates with ⟨skill, hGates, _⟩
          exact absurd hGates (hRejected skill)
      | ran hNode' _ hPrepared' =>
          have hSame := eq_of_callId hNodup hNode hNode'
            hId.symm
          subst hSame
          rw [hPrepared.resultWith_eq hPrepared']

------------------------------------------------------------
-- Gates
------------------------------------------------------------

/- The counts of a skill, which its breaker depends on. -/
def ToolPerformance.counts
    (performance : ToolPerformance) :
    String × Nat × Nat :=
  (performance.skillName, performance.calls,
    performance.failures)

/- The counts do not depend on the call records. -/
theorem countToolResult_counts
    {records records' : List SessionRecord}
    {groups groups' : List ToolPerformance}
    {result : ToolResultRecord}
    (hSame : groups.map (·.counts) =
      groups'.map (·.counts)) :
    (countToolResult records groups result).map (·.counts) =
      (countToolResult records' groups' result).map
        (·.counts) := by
  induction groups generalizing groups' with
  | nil =>
      rw [List.map_nil] at hSame
      rw [List.map_eq_nil_iff.mp hSame.symm]
      rfl
  | cons group rest ih =>
      cases groups' with
      | nil => cases hSame
      | cons group' rest' =>
          rw [List.map_cons, List.map_cons, List.cons.injEq]
            at hSame
          rcases hSame with ⟨hCounts, hRest⟩
          unfold ToolPerformance.counts at hCounts
          rw [Prod.mk.injEq, Prod.mk.injEq] at hCounts
          rcases hCounts with ⟨hName, hCalls, hFailures⟩
          unfold countToolResult
          rw [hName]
          split
          · rw [List.map_cons, List.map_cons, hRest]
            unfold ToolPerformance.count
              ToolPerformance.counts
            simp [hName, hCalls, hFailures]
          · rw [List.map_cons, List.map_cons, ih hRest]
            unfold ToolPerformance.counts
            simp [hName, hCalls, hFailures]

theorem summarizeToolPerformance_counts
    {records records' : List SessionRecord}
    (hResults : toolResults records = toolResults records') :
    (summarizeToolPerformance records).map (·.counts) =
      (summarizeToolPerformance records').map (·.counts) := by
  have hFold : ∀ (results : List ToolResultRecord) groups
      groups',
      groups.map ToolPerformance.counts =
          groups'.map ToolPerformance.counts →
        (results.foldl (countToolResult records)
            groups).map (·.counts) =
          (results.foldl (countToolResult records')
            groups').map (·.counts) := by
    intro results
    induction results with
    | nil => exact fun _ _ h => h
    | cons result rest ih =>
        intro groups groups' hSame
        exact ih _ _ (countToolResult_counts hSame)
  unfold summarizeToolPerformance
  rw [hResults]
  exact hFold _ [] [] rfl

theorem find?_counts
    {groups groups' : List ToolPerformance}
    (skillName : String)
    (hSame : groups.map (·.counts) =
      groups'.map (·.counts)) :
    (groups.find? (·.skillName = skillName)).map (·.counts) =
      (groups'.find? (·.skillName = skillName)).map
        (·.counts) := by
  have hFind : ∀ groups : List ToolPerformance,
      (groups.find? (·.skillName = skillName)).map
          (·.counts) =
        (groups.map (·.counts)).find?
          (·.1 = skillName) := by
    intro groups
    rw [List.find?_map]
    rfl
  rw [hFind, hFind, hSame]

/- The breaker of a skill depends on the results only. -/
theorem isSkillCircuitBroken_congr
    {skillName : String}
    (hResults :
      toolResults context'.records =
        toolResults context.records) :
    engine.isSkillCircuitBroken skillName context' =
      engine.isSkillCircuitBroken skillName context := by
  have hSame := find?_counts skillName
    (summarizeToolPerformance_counts hResults)
  unfold AgentEngine.isSkillCircuitBroken
  cases hLeft : (summarizeToolPerformance
      context'.records).find? (·.skillName = skillName) with
  | none =>
      rw [hLeft] at hSame
      cases hRight : (summarizeToolPerformance
          context.records).find?
            (·.skillName = skillName) with
      | none => rfl
      | some right =>
          rw [hRight] at hSame
          cases hSame
  | some left =>
      rw [hLeft] at hSame
      cases hRight : (summarizeToolPerformance
          context.records).find?
            (·.skillName = skillName) with
      | none =>
          rw [hRight] at hSame
          cases hSame
      | some right =>
          rw [hRight] at hSame
          have hCounts : left.counts = right.counts :=
            Option.some.inj hSame
          unfold ToolPerformance.counts at hCounts
          rw [Prod.mk.injEq, Prod.mk.injEq] at hCounts
          have hRate : left.failureRate =
              right.failureRate := by
            unfold ToolPerformance.failureRate
            rw [hCounts.2.1, hCounts.2.2]
          dsimp only
          rw [hRate, hCounts.2.1]

theorem SameGates.passesGates
    {skill : RegisteredSkill}
    (hSame : SameGates context context')
    (hGates : PassesGates engine context node skill) :
    PassesGates engine context' node skill := by
  rcases hSame.policy with ⟨parallel, ready, hPolicy⟩
  constructor
  · exact hGates.registered
  · rw [hPolicy]
    exact hGates.argsValid
  · rw [hSame.scopes]
    exact hGates.scopesGranted
  · rw [hPolicy]
    exact hGates.nativeAllowed
  · rw [hPolicy]
    exact hGates.dryRunAllowed
  · rw [isSkillCircuitBroken_congr hSame.toolResults]
    exact hGates.breakerClosed

theorem SameGates.symm
    (hSame : SameGates context context') :
    SameGates context' context := by
  rcases hSame.policy with ⟨parallel, ready, hPolicy⟩
  refine ⟨hSame.scopes.symm, ⟨
    context.metadata.policy.maxParallelSkillCalls,
    context.metadata.policy.maxReadyToolNodes, ?_⟩,
    hSame.toolResults.symm⟩
  rw [hPolicy]

theorem SameGates.preparedFor
    (hSame : SameGates context context')
    (hPrepared : PreparedFor engine context node prepared) :
    PreparedFor engine context' node prepared := by
  rcases hPrepared.gates with
    ⟨skill, hGates, hBackend, hManifest, hRetry⟩
  rcases hSame.policy with ⟨parallel, ready, hPolicy⟩
  refine ⟨⟨skill, hSame.passesGates hGates, hBackend, ?_,
    ?_⟩, hPrepared.callId, hPrepared.name, hPrepared.args,
    hPrepared.dryRun⟩
  · rw [hPolicy, hManifest]
    rfl
  · rw [hPolicy, hRetry]
    rfl

/- The limits on parallel calls do not decide how one ends. -/
theorem Verdict.congr
    {status : ToolNodeStatus}
    {callId : String}
    (hSame : SameGates context context')
    (hVerdict :
      Verdict engine context graph results status callId) :
    Verdict engine context' graph results status callId := by
  induction hVerdict with
  | skipped hNode hMem hFailed _ ih =>
      exact .skipped hNode hMem hFailed ih
  | rejected hNode _ hRejected ih =>
      refine .rejected hNode ih ?_
      intro skill hGates
      exact hRejected skill (hSame.symm.passesGates hGates)
  | ran hNode _ hPrepared ih =>
      exact .ran hNode ih (hSame.preparedFor hPrepared)

end Verdicts

------------------------------------------------------------
-- Calls With Fixed Results
------------------------------------------------------------

/- Every executor returns the result of its call. -/
def AnswersAs
    (results : CallResults) :
    (op : Op) → Answer op → Prop
| .execute _ invocation, a =>
    a = .returned
      (results invocation.callId invocation.manifest.name
        invocation.args invocation.dryRun)
| _, _ => True

/- A request that ends calls of the graph as `D` says. -/
def Judged
    (D : ToolNodeStatus → String → Prop)
    (graph : ToolExecutionGraph)
    (op : Op) :
    Prop :=
  ∀ checkpoint, op = .append (.toolNodeCheckpoint checkpoint) →
    checkpoint.graphId = graph.graphId →
      checkpoint.status.isTerminal = true →
        D checkpoint.status checkpoint.callId

section Steady

variable {M : Machine Op Answer World}
variable {engine : AgentEngine}
variable {context : AgentContext}
variable {graph : ToolExecutionGraph}
variable {results : CallResults}
variable {node : ToolNode}
variable {prepared : PreparedCall}
variable {w : World}

variable (hSteady : ∀ w op a,
  M.allowed w op a → AnswersAs results op a)

include hSteady

/- Retrying a call does not change what it returns. -/
theorem runAttempts_steady
    {P : World → Op → Prop}
    {remaining interval : Nat}
    {output : Except SkillExecutionError Json}
    (hExecute : ∀ w, P w
      (.execute prepared.backend prepared.invocation))
    (hSleep : ∀ w ms, P w (.sleep ms)) :
    Safe M P
      (fun final _ => final = .ok
        (if remaining = 0 then output
        else results prepared.callId prepared.manifest.name
          prepared.args prepared.dryRun))
      (fun _ _ => True)
      (runAttempts prepared remaining interval output)
      w := by
  induction remaining generalizing interval output w with
  | zero => exact rfl
  | succ remaining ih =>
      refine ⟨hExecute w, ?_⟩
      intro answer hAllowed
      have hAnswer : answer = .returned
          (results prepared.callId prepared.manifest.name
            prepared.args prepared.dryRun) :=
        hSteady _ _ _ hAllowed
      subst hAnswer
      rw [if_neg (Nat.succ_ne_zero remaining)]
      show Safe M P _ _ (if _ then _ else _) _
      split
      · exact rfl
      · refine ⟨hSleep _ interval, ?_⟩
        intro _ _
        refine Safe.mono (fun _ _ h => h) ?_ (fun _ _ h => h)
          ih
        intro final _ hFinal
        rw [hFinal]
        split <;> rfl

theorem runPreparedCall_steady
    {P : World → Op → Prop}
    (hExecute : ∀ w, P w
      (.execute prepared.backend prepared.invocation))
    (hSleep : ∀ w ms, P w (.sleep ms)) :
    Safe M P
      (fun task _ => task = .ok (prepared.resultWith results))
      (fun _ _ => True) (runPreparedCall prepared) w := by
  unfold runPreparedCall
  refine Safe.bind
    (runAttempts_steady hSteady hExecute hSleep) ?_
  intro output w' hOutput
  subst hOutput
  exact rfl

/- Calls with fixed results end with their verdicts. -/
theorem steady_verdictRules :
    VerdictRules M
      (fun _ op =>
        Judged (Verdict engine context graph results) graph op)
      engine context graph
      (Verdict engine context graph results) where
  justified := fun _ _ hOp checkpoint hAppend _ hTerminal =>
    (hOp.2 checkpoint hAppend hTerminal).2
  skipped := fun node hNode dependency hMem status _ hFailed
      hBlocked => .skipped hNode hMem hFailed hBlocked
  rejected := fun node hNode hSupplied hRejected =>
    .rejected hNode hSupplied hRejected
  ran := by
    intro node hNode hSupplied prepared w hPrepared
    refine Safe.mono (fun _ _ h => h) ?_ (fun _ _ h => h)
      (runPreparedCall_steady hSteady (fun _ => nofun)
        (fun _ _ => nofun))
    rintro _ _ hTask result hResult
    rw [hTask] at hResult
    cases hResult
    have hId : (prepared.resultWith results).callId =
        node.callId :=
      hPrepared.callId
    rw [hId]
    exact .ran hNode hSupplied hPrepared

end Steady

------------------------------------------------------------
-- Sound Ledgers
------------------------------------------------------------

/-
  A ledger all of whose terminal checkpoints of a graph are
  verdicts.
-/
structure Sound
    (D : ToolNodeStatus → String → Prop)
    (graph : ToolExecutionGraph)
    (w : World) : Prop where
  latched : Latched graph.graphId w.ledger
  verdict :
    ∀ callId status, settledIn graph w callId = some status →
      D status callId

section Soundness

variable {engine : AgentEngine}
variable {context : AgentContext}
variable {graph : ToolExecutionGraph}
variable {results : CallResults}
variable {w : World}

theorem Verdict.isTerminal
    {status : ToolNodeStatus}
    {callId : String}
    (hVerdict :
      Verdict engine context graph results status callId) :
    status.isTerminal = true := by
  cases hVerdict with
  | skipped => rfl
  | rejected => rfl
  | ran => exact finalStatusForResult_isTerminal _

/- A call with a verdict stays open as long as work is left. -/
theorem Sound.settled_of_verdict
    {status : ToolNodeStatus}
    {callId : String}
    (hNodup : (graph.nodes.map (·.callId)).Nodup)
    (hSound :
      Sound (Verdict engine context graph results) graph w)
    (hQuiet : Quiescent graph (settledIn graph w))
    (hVerdict :
      Verdict engine context graph results status callId) :
    settledIn graph w callId = some status := by
  have hDecided : ∀ {status callId},
      Verdict engine context graph results status callId →
        settledIn graph w callId ≠ none →
          settledIn graph w callId = some status := by
    intro status callId hVerdict hSome
    cases hStatus : settledIn graph w callId with
    | none => exact absurd hStatus hSome
    | some other =>
        rw [(hSound.verdict _ _ hStatus).unique hNodup hVerdict]
  -- a supplied node that is open would be ready
  have hReady : ∀ node ∈ graph.nodes,
      (∀ dependency ∈ node.dependencies,
        settledIn graph w dependency.callId =
          some .succeeded) →
        settledIn graph w node.callId ≠ none := by
    intro node hNode hSupplied hOpen
    rcases hQuiet node hNode with hTerminal | ⟨_, hNotReady⟩
    · rw [hOpen] at hTerminal
      cases hTerminal
    · have hAll : (node.dependencies.all fun dependency =>
          decide (settledIn graph w dependency.callId =
            some .succeeded)) = true := by
        simpa using hSupplied
      unfold ToolNode.isReady at hNotReady
      rw [hAll, hOpen] at hNotReady
      cases hNotReady
  induction hVerdict with
  | @skipped node dependency status hNode hMem hFailed
      hBlocked ih =>
      refine hDecided
        (.skipped hNode hMem hFailed hBlocked) ?_
      intro hOpen
      rcases hQuiet node hNode with
        hTerminal | ⟨hBlocking, _⟩
      · rw [hOpen] at hTerminal
        cases hTerminal
      · have hNone := List.find?_eq_none.mp hBlocking
          dependency hMem
        have hTerminal := hBlocked.isTerminal
        rw [ih] at hNone
        cases status with
        | succeeded => exact hFailed rfl
        | failed => simp at hNone
        | skipped => simp at hNone
        | timedOut => simp at hNone
        | _ => cases hTerminal
  | rejected hNode hSupplied hRejected ih =>
      exact hDecided (.rejected hNode hSupplied hRejected)
        (hReady _ hNode ih)
  | ran hNode hSupplied hPrepared ih =>
      exact hDecided (.ran hNode hSupplied hPrepared)
        (hReady _ hNode ih)

/- What is settled in the end is exactly what has a verdict. -/
theorem Sound.settled_iff
    {status : ToolNodeStatus}
    {callId : String}
    (hNodup : (graph.nodes.map (·.callId)).Nodup)
    (hSound :
      Sound (Verdict engine context graph results) graph w)
    (hQuiet : Quiescent graph (settledIn graph w)) :
    settledIn graph w callId = some status ↔
      Verdict engine context graph results status callId :=
  ⟨hSound.verdict callId status,
    hSound.settled_of_verdict hNodup hQuiet⟩

/- A judged request keeps a ledger sound. -/
theorem Sound.next
    {D : ToolNodeStatus → String → Prop}
    {op : Op}
    {a : Answer op}
    (hSound : Sound D graph w)
    (hFresh : FreshCheckpoint graph.graphId w op)
    (hJudged : Judged D graph op) :
    Sound D graph (hostNext w op a) := by
  refine ⟨hSound.latched.next hFresh, ?_⟩
  rcases hostNext_ledger w op a with hSame | hAppend
  · unfold settledIn
    rw [hSame]
    exact hSound.verdict
  · rcases hAppend with ⟨record, hOp, hLedger⟩
    subst hOp
    intro callId status hStatus
    unfold settledIn at hStatus
    rw [hLedger, settledStatus_append] at hStatus
    cases hNew :
        terminalStatus graph.graphId callId record with
    | none =>
        rw [hNew] at hStatus
        exact hSound.verdict callId status hStatus
    | some newest =>
        rw [hNew] at hStatus
        have hEq : newest = status :=
          Option.some.inj hStatus
        subst hEq
        cases record with
        | toolNodeCheckpoint checkpoint =>
            dsimp only [terminalStatus] at hNew
            split at hNew
            · rename_i hMatch
              have hEq : checkpoint.status = newest :=
                Option.some.inj hNew
              rw [← hEq, ← hMatch.2.1]
              exact hJudged checkpoint rfl hMatch.1
                hMatch.2.2
            · cases hNew
        | _ => cases hNew

end Soundness

end RainEngine
