import RainEngine.Approvals.Clearance

/-
  This file is about where the calls come from that an advance
  stores in a graph, holds back for an approval, or executes.
  Each part of an advance takes them from the records it has
  read and from the action it was given.

  Key definitions include:
    * `AskedFor`
    * `Trailed`
    * `Op.Traced`
    * `Op.IsAbout`

  Key theorems include:
    * `uses_batch_isAbout`
    * `uses_recordResults_isAbout`
    * `Trailed.safe`
-/

namespace RainEngine

open Effects

------------------------------------------------------------
-- Asking For A Call
------------------------------------------------------------

/- The calls an action hands to the kernel. -/
def AgentAction.calls : AgentAction → List PlannedSkillCall
| .callSkills calls => calls
| .suspend _ pendingCalls _ => pendingCalls
| _ => []

/- The actions a record commits the kernel to. -/
def SessionRecord.actions : SessionRecord → List AgentAction
| .modelDecision decision => [decision.action]
| .executionPlan plan => plan.steps
| _ => []

/-
  The call stands in a decision of the provider or in a step of
  a plan that has been recorded.
-/
def AskedFor
    (records : List SessionRecord)
    (call : PlannedSkillCall) :
    Prop :=
  ∃ record ∈ records, ∃ action ∈ record.actions,
    call ∈ action.calls

/- What an executor is invoked with is the call. -/
structure SkillInvocation.Carries
    (invocation : SkillInvocation)
    (call : PlannedSkillCall) : Prop where
  callId : invocation.callId = call.callId
  name : invocation.manifest.name = call.name
  args : invocation.args = call.args
  dryRun : invocation.dryRun = call.dryRun

/-
  The calls that a ledger keeps, in graphs and in approvals,
  have been asked for in it.
-/
structure Trailed (w : World) : Prop where
  graphs : ∀ graph ∈ toolGraphs w.ledger,
    ∀ node ∈ graph.nodes, AskedFor w.ledger node.toCall
  pendings : ∀ pending, .pendingApproval pending ∈ w.ledger →
    ∀ call ∈ pending.pendingCalls, AskedFor w.ledger call

/- A call of that id has been asked for. -/
def AskedUnder
    (records : List SessionRecord)
    (callId : String) :
    Prop :=
  ∃ call, AskedFor records call ∧ call.callId = callId

/- The calls a request is about have been asked for before. -/
def Op.Traced (records : List SessionRecord) : Op → Prop
| .append (.toolExecutionGraph graph) =>
    ∀ node ∈ graph.nodes, AskedFor records node.toCall
| .append (.pendingApproval pending) =>
    ∀ call ∈ pending.pendingCalls, AskedFor records call
| .append (.toolNodeCheckpoint checkpoint) =>
    AskedUnder records checkpoint.callId
| .append (.skillInputValidation validation) =>
    AskedUnder records validation.callId
| .append (.toolCall record) =>
    ∃ call, AskedFor records call ∧
      call.callId = record.callId ∧ call.args = record.args
| .append (.toolResult result) =>
    AskedUnder records result.callId
| .execute _ invocation =>
    ∃ call, AskedFor records call ∧ invocation.Carries call
| _ => True

section Trails

variable {w w' : World}
variable {records more : List SessionRecord}
variable {record : SessionRecord}
variable {call : PlannedSkillCall}

theorem AskedFor.mono
    (hAsked : AskedFor records call)
    (hSubset : records ⊆ more) :
    AskedFor more call := by
  rcases hAsked with ⟨record, hMem, hAction⟩
  exact ⟨record, hSubset hMem, hAction⟩

theorem trailed_empty (sessionId : String) :
    Trailed (World.empty sessionId) where
  graphs := nofun
  pendings := nofun

/- A ledger keeps its trail if the requests are traced. -/
theorem Trailed.next
    (op : Op)
    (a : Answer op)
    (hTrailed : Trailed w)
    (hTraced : op.Traced w.ledger) :
    Trailed (hostNext w op a) := by
  have hGrows := (hostNext_extends w op a).subset
  constructor
  · intro graph hGraph node hNode
    refine AskedFor.mono ?_ hGrows
    rw [mem_toolGraphs] at hGraph
    rcases hostNext_ledger w op a with hSame | hAppend
    · rw [hSame, ← mem_toolGraphs] at hGraph
      exact hTrailed.graphs graph hGraph node hNode
    · rcases hAppend with ⟨record, hOp, hLedger⟩
      subst hOp
      rw [hLedger, List.mem_append] at hGraph
      rcases hGraph with hOld | hNew
      · exact hTrailed.graphs graph (mem_toolGraphs.mpr hOld)
          node hNode
      · rw [List.mem_singleton] at hNew
        subst hNew
        exact hTraced node hNode
  · intro pending hPending call hCall
    refine AskedFor.mono ?_ hGrows
    rcases hostNext_ledger w op a with hSame | hAppend
    · rw [hSame] at hPending
      exact hTrailed.pendings pending hPending call hCall
    · rcases hAppend with ⟨record, hOp, hLedger⟩
      subst hOp
      rw [hLedger, List.mem_append] at hPending
      rcases hPending with hOld | hNew
      · exact hTrailed.pendings pending hOld call hCall
      · rw [List.mem_singleton] at hNew
        subst hNew
        exact hTraced call hCall

end Trails

------------------------------------------------------------
-- Calls Of A Part
------------------------------------------------------------

/- The calls of the graphs among records. -/
def graphCalls
    (records : List SessionRecord) :
    List PlannedSkillCall :=
  (toolGraphs records).flatMap (·.nodes.map ToolNode.toCall)

/- One of the calls has that id. -/
def HasId
    (calls : List PlannedSkillCall)
    (callId : String) :
    Prop :=
  ∃ call ∈ calls, call.callId = callId

/- The request is about the calls, and it holds none back. -/
def Op.IsAbout (calls : List PlannedSkillCall) : Op → Prop
| .append (.toolExecutionGraph graph) =>
    ∀ node ∈ graph.nodes, node.toCall ∈ calls
| .append (.pendingApproval _) => False
| .append (.toolNodeCheckpoint checkpoint) =>
    HasId calls checkpoint.callId
| .append (.skillInputValidation validation) =>
    HasId calls validation.callId
| .append (.toolCall record) =>
    ∃ call ∈ calls, call.callId = record.callId ∧
      call.args = record.args
| .append (.toolResult result) =>
    HasId calls result.callId
| .execute _ invocation =>
    ∃ call ∈ calls, invocation.Carries call
| _ => True

/- A part of an advance that is about no calls. -/
abbrev Callless
    {α : Type}
    (p : EngineM α) :
    Prop :=
  Uses (Op.IsAbout []) (fun _ => True) p

section Parts

variable {engine : AgentEngine}
variable {context : AgentContext}
variable {step : Nat}
variable {calls : List PlannedSkillCall}

/- The nodes of a batch's graph are known or asked for. -/
theorem existingOrNewGraph_nodes
    {node : ToolNode}
    (hNode :
      node ∈ (existingOrNewGraph context step calls).nodes) :
    node.toCall ∈ graphCalls context.records ++ calls := by
  rcases existingOrNewGraph_cases context step calls with
    ⟨hMem, _⟩ | ⟨hNew, _⟩
  · refine List.mem_append_left _ (List.mem_flatMap.mpr ?_)
    exact ⟨_, hMem, List.mem_map_of_mem hNode⟩
  · refine List.mem_append_right _ ?_
    rw [hNew] at hNode
    have hNodes :
        (newGraph context step calls).nodes.map
          ToolNode.toCall = calls :=
      newGraph_nodes_toCall
    rw [← hNodes]
    exact List.mem_map_of_mem hNode

theorem PlannedRequest.isAbout
    {op : Op}
    (hRequest : PlannedRequest engine context
      (existingOrNewGraph context step calls) op) :
    op.IsAbout (graphCalls context.records ++ calls) := by
  rcases hRequest with hGraph | hFuel | hBatch
  · subst hGraph
    exact fun node hNode => existingOrNewGraph_nodes hNode
  · subst hFuel
    trivial
  · cases hBatch with
    | @checkpoint node record hNode _ hCall =>
        exact ⟨node.toCall, existingOrNewGraph_nodes hNode,
          hCall.symm⟩
    | @validation node record hNode _ hCall =>
        exact ⟨node.toCall, existingOrNewGraph_nodes hNode,
          hCall.symm⟩
    | @toolCall node record hNode hCall hArgs =>
        exact ⟨node.toCall, existingOrNewGraph_nodes hNode,
          hCall.symm, hArgs.symm⟩
    | @execute node prepared hNode hPrepared =>
        rcases hPrepared.gates with
          ⟨skill, hGates, _, hManifest, _⟩
        have hName :
            prepared.manifest.name = node.skillName := by
          rw [hManifest]
          have hFound := hGates.registered
          unfold SkillRegistry.get at hFound
          simpa [SkillManifest.withEffectivePolicy] using
            List.find?_some hFound
        exact ⟨node.toCall, existingOrNewGraph_nodes hNode,
          { callId := hPrepared.callId
            name := hName
            args := hPrepared.args
            dryRun := hPrepared.dryRun }⟩
    | _ => trivial

/- The results of a graph are of its nodes. -/
theorem uses_executeGraph_results
    {graph : ToolExecutionGraph} :
    Uses (fun _ => True)
      (fun batch : ExecutedBatch =>
        ∀ result ∈ batch.results, ∃ node ∈ graph.nodes,
          node.callId = result.callId)
      (executeGraph engine context graph step) := by
  unfold executeGraph
  refine Uses.bind (Uses.any _) ?_
  intro final _ result hMem
  have hOrdered :
      result ∈ orderedResults graph final.newResults :=
    hMem
  unfold orderedResults at hOrdered
  rcases List.mem_filterMap.mp hOrdered with
    ⟨node, hNode, hFound⟩
  refine ⟨node, hNode, ?_⟩
  have hId := List.find?_some hFound
  rw [decide_eq_true_eq] at hId
  exact hId.symm

/- A batch that does not wait is about its calls. -/
theorem uses_batch_isAbout
    {approvalOverride : Bool}
    (hRuns : ¬Waits engine calls approvalOverride) :
    Uses (Op.IsAbout (graphCalls context.records ++ calls))
      (fun r => ∃ batch, r = BatchExecution.executed batch ∧
        ∀ result ∈ batch.results,
          HasId (graphCalls context.records ++ calls)
            result.callId)
      (executePlannedCalls engine context step calls
        approvalOverride) := by
  have hResults :
      Uses (fun _ => True)
        (fun r => ∃ batch, r = BatchExecution.executed batch ∧
          ∀ result ∈ batch.results,
            HasId (graphCalls context.records ++ calls)
              result.callId)
        (executePlannedCalls engine context step calls
          approvalOverride) := by
    rw [executePlannedCalls_eq hRuns]
    refine Uses.bind (Uses.any _) ?_
    intro _ _
    refine Uses.bind uses_executeGraph_results ?_
    intro batch hBatch
    refine ⟨batch, rfl, ?_⟩
    intro result hResult
    rcases hBatch result hResult with ⟨node, hNode, hId⟩
    exact ⟨node.toCall, existingOrNewGraph_nodes hNode, hId⟩
  exact Uses.mono (fun _ h => h.1.isAbout) (fun _ h => h.2)
    ((uses_executePlannedCalls hRuns).and hResults)

/- A batch that waits holds back the calls it was given. -/
theorem uses_waiting_batch
    {approvalOverride : Bool}
    (hWaits : Waits engine calls approvalOverride) :
    Uses (Op.IsAbout [])
      (fun r => ∃ reason token,
        r = BatchExecution.suspended reason calls token)
      (executePlannedCalls engine context step calls
        approvalOverride) := by
  have hYes : (!approvalOverride) = true ∧
      approvalCalls engine calls ≠ [] :=
    ⟨by simp [hWaits.1], hWaits.2⟩
  unfold executePlannedCalls
  rw [if_pos hYes]
  exact ⟨trivial, fun token => ⟨_, token, rfl⟩⟩

/- Results of the calls are all that is recorded. -/
theorem uses_recordResults_isAbout
    {results : List ToolResultRecord}
    (hResults : ∀ result ∈ results,
      HasId calls result.callId) :
    Uses (Op.IsAbout calls)
      (fun r => ∀ context', r = .ok context' →
        context'.records = context.records ++
          results.map SessionRecord.toolResult)
      (recordResults results context) := by
  induction results generalizing context with
  | nil =>
      rintro context' ⟨⟩
      exact (List.append_nil _).symm
  | cons result rest ih =>
      refine ⟨hResults result List.mem_cons_self, ?_⟩
      intro a
      cases a with
      | ok _ =>
          refine Uses.mono (fun _ h => h) ?_
            (ih fun other hMem =>
              hResults other (List.mem_cons_of_mem _ hMem))
          intro r hPushed context' hSame
          rw [hPushed context' hSame, List.map_cons,
            AgentContext.pushToolResult, List.append_assoc]
          rfl
      | error _ =>
          rintro context' ⟨⟩

theorem Op.Incidental.callless
    {op : Op}
    (hIncidental : op.Incidental) :
    op.IsAbout [] := by
  cases op with
  | append record =>
      cases record <;> trivial
  | execute _ _ => exact hIncidental.elim
  | _ => trivial

theorem callless_finishAdvance
    {stopReason : StopReason}
    {response detail : Option String}
    {stepsExecuted : Nat}
    {resumeToken : Option ResumeToken}
    {emittedEvents : List KernelEventRecord} :
    Callless
      (finishAdvance engine context stopReason response
        detail stepsExecuted resumeToken emittedEvents) := by
  refine Uses.bind (V := fun _ => True) ?_ fun _ _ => trivial
  exact uses_finish (fun _ _ => trivial) trivial
    (fun _ h => h.isNote.incidental.callless)
    fun _ => trivial

theorem callless_policyOutcome
    {stepsExecuted failures : Nat} :
    Callless
      (policyOutcome engine context stepsExecuted
        failures) := by
  refine Uses.bind
    (uses_policyStop (fun _ => trivial) (fun _ => trivial)) ?_
  intro stop _
  cases stop with
  | none => trivial
  | some stop =>
      rcases stop with ⟨stopReason, detail⟩
      refine Uses.bind (V := fun _ => True) ?_
        fun _ _ => trivial
      exact uses_finish (fun _ _ => trivial) trivial
        (fun _ h => h.isNote.incidental.callless)
        fun _ => trivial

end Parts

------------------------------------------------------------
-- Parts In A World With A Trail
------------------------------------------------------------

/- The records that an advance takes calls from. -/
def SessionRecord.isSource : SessionRecord → Bool
| .toolExecutionGraph _ => true
| .pendingApproval _ => true
| .executionPlan _ => true
| _ => false

/- The graphs, approvals and plans are in the ledger. -/
def Sourced
    (records : List SessionRecord)
    (w : World) :
    Prop :=
  ∀ record ∈ records,
    record.isSource = true → record ∈ w.ledger

section Safety

variable {M : Machine Op Answer World}
variable {w w' : World}
variable {records : List SessionRecord}
variable {calls : List PlannedSkillCall}

theorem Sourced.mono
    (hSourced : Sourced records w)
    (hGrows : w.ledger <+: w'.ledger) :
    Sourced records w' :=
  fun record hMem hSource =>
    hGrows.subset (hSourced record hMem hSource)

/- The calls of known graphs have been asked for. -/
theorem Trailed.graphCalls
    (hTrailed : Trailed w)
    (hSourced : Sourced records w) :
    ∀ call ∈ graphCalls records, AskedFor w.ledger call := by
  intro call hCall
  rcases List.mem_flatMap.mp hCall with ⟨graph, hGraph, hNode⟩
  rcases List.mem_map.mp hNode with ⟨node, hMem, hEq⟩
  rw [← hEq]
  have hLedger : .toolExecutionGraph graph ∈ w.ledger :=
    hSourced _ (mem_toolGraphs.mp hGraph) rfl
  exact hTrailed.graphs graph (mem_toolGraphs.mpr hLedger)
    node hMem

theorem HasId.asked
    {callId : String}
    (hId : HasId calls callId)
    (hCalls : ∀ call ∈ calls, AskedFor records call) :
    AskedUnder records callId := by
  rcases hId with ⟨call, hMem, hSame⟩
  exact ⟨call, hCalls call hMem, hSame⟩

/- What a part is about has been asked for. -/
theorem Op.IsAbout.traced
    {op : Op}
    (hAbout : op.IsAbout calls)
    (hCalls : ∀ call ∈ calls, AskedFor records call) :
    op.Traced records := by
  unfold Op.IsAbout at hAbout
  unfold Op.Traced
  split at hAbout
  · exact fun node hNode => hCalls _ (hAbout node hNode)
  · exact hAbout.elim
  · exact hAbout.asked hCalls
  · exact hAbout.asked hCalls
  · rcases hAbout with ⟨call, hMem, hSame⟩
    exact ⟨call, hCalls call hMem, hSame⟩
  · exact hAbout.asked hCalls
  · rcases hAbout with ⟨call, hMem, hCarries⟩
    exact ⟨call, hCalls call hMem, hCarries⟩
  · trivial

/-
  A part about calls that have been asked for keeps the trail,
  and whatever it asks for is traced.
-/
theorem Trailed.safe
    {α : Type}
    {p : EngineM α}
    {V : α → Prop}
    (hHost : OnHost M)
    (hTrailed : Trailed w)
    (hCalls : ∀ call ∈ calls, AskedFor w.ledger call)
    (hUses : Uses (Op.IsAbout calls) V p) :
    Safe M (fun w op => op.Traced w.ledger)
      (fun a w' => V a ∧ Trailed w' ∧ w.ledger <+: w'.ledger)
      (fun _ w' => Trailed w') p w := by
  have hTraced : ∀ (w' : World) (op : Op),
      Trailed w' ∧ w.ledger <+: w'.ledger →
        op.IsAbout calls → op.Traced w'.ledger := by
    rintro w' op ⟨_, hGrows⟩ hOp
    exact hOp.traced fun call hCall =>
      (hCalls call hCall).mono hGrows.subset
  refine Safe.mono (fun _ _ h => h) (fun _ _ h => h)
    (fun _ _ h => h.1)
    (Uses.safe
      (I := fun w' => Trailed w' ∧ w.ledger <+: w'.ledger)
      hUses hTraced ?_ ⟨hTrailed, List.prefix_refl _⟩)
  intro w' op a hHere hOp _
  rw [hHost.next]
  exact ⟨hHere.1.next _ _ (hTraced w' op hHere hOp),
    hHere.2.trans (hostNext_extends w' op a)⟩

/- The same for a part that is about no calls. -/
theorem Trailed.safe_callless
    {α : Type}
    {p : EngineM α}
    {V : α → Prop}
    (hHost : OnHost M)
    (hTrailed : Trailed w)
    (hUses : Uses (Op.IsAbout []) V p) :
    Safe M (fun w op => op.Traced w.ledger)
      (fun a w' => V a ∧ Trailed w' ∧ w.ledger <+: w'.ledger)
      (fun _ w' => Trailed w') p w :=
  hTrailed.safe hHost
    (fun _ hMem => absurd hMem List.not_mem_nil) hUses

end Safety

end RainEngine
