import RainEngine.Approvals.Resumptions

/-
  This file tells the graphs of one step from the graphs of
  another, and bounds what a step leaves alone: it resolves no
  approval, and it adds to graphs of its own number only.

  Key definitions include:
    * `OfStep`
    * `Op.Spares`

  Key theorems include:
    * `graphIdFor_step`
    * `spares_performSingleStep`
-/

namespace RainEngine

open Effects

------------------------------------------------------------
-- Ids Of Graphs
------------------------------------------------------------

/- The id of a graph tells its step. -/
theorem graphIdFor_step
    {triggerId triggerId' : String}
    {step step' : Nat}
    (hSame :
      graphIdFor triggerId step = graphIdFor triggerId' step') :
    step = step' := by
  have hDigits : ∀ n : Nat,
      ∀ c ∈ (Nat.repr n).toList.reverse, (c != ':') = true := by
    intro n c hMem
    rw [List.mem_reverse, Nat.toList_repr] at hMem
    have hDigit :=
      Nat.isDigit_of_mem_toDigits (by decide) (by decide) hMem
    rw [bne_iff_ne]
    rintro rfl
    exact absurd hDigit (by decide)
  -- the digits are what stands after the last colon
  have hNumber : ∀ (triggerId : String) (n : Nat),
      (graphIdFor triggerId n).toList.reverse.takeWhile
          (· != ':') =
        (Nat.repr n).toList.reverse := by
    intro triggerId n
    have hShape :
        (graphIdFor triggerId n).toList.reverse =
          (Nat.repr n).toList.reverse ++
            ':' :: triggerId.toList.reverse := by
      unfold graphIdFor
      rw [String.toList_append, String.toList_append,
        List.reverse_append, List.reverse_append]
      rfl
    rw [hShape, List.takeWhile_append_of_pos (hDigits n)]
    simp
  have hReverse := hNumber triggerId step
  rw [hSame, hNumber triggerId' step'] at hReverse
  have hSteps := List.reverse_injective hReverse
  rw [Nat.toList_repr, Nat.toList_repr] at hSteps
  rw [← @Nat.ofDigitChars_toDigits 10 step (by decide)
    (by decide), ← hSteps]
  exact Nat.ofDigitChars_toDigits (by decide) (by decide)

/- The graph id belongs to a step, in the records or anew. -/
def OfStep
    (records : List SessionRecord)
    (step : Nat)
    (graphId : String) :
    Prop :=
  (∃ triggerId, graphId = graphIdFor triggerId step) ∨
    ∃ graph ∈ toolGraphs records,
      graph.graphId = graphId ∧ graph.step = step

theorem ofStep_existingOrNewGraph
    {context : AgentContext}
    {step : Nat}
    {calls : List PlannedSkillCall} :
    OfStep context.records step
        (existingOrNewGraph context step calls).graphId ∧
      (existingOrNewGraph context step calls).step = step := by
  rcases existingOrNewGraph_cases context step calls with
    ⟨hMem, hAnswers⟩ | ⟨hNew, _⟩
  · unfold ToolExecutionGraph.answersTo at hAnswers
    rw [Bool.and_eq_true, decide_eq_true_iff] at hAnswers
    exact ⟨.inr ⟨_, hMem, rfl, hAnswers.1⟩, hAnswers.1⟩
  · rw [hNew]
    exact ⟨.inl ⟨_, rfl⟩, rfl⟩

------------------------------------------------------------
-- What A Step Leaves Alone
------------------------------------------------------------

/-
  A request that resolves no approval and that adds to graphs
  of the step only.
-/
def Op.Spares
    (records : List SessionRecord)
    (step : Nat) :
    Op → Prop
| .append (.approvalResolution _) => False
| .append (.toolExecutionGraph graph) =>
    OfStep records step graph.graphId ∧ graph.step = step
| .append (.toolNodeCheckpoint checkpoint) =>
    OfStep records step checkpoint.graphId
| _ => True

abbrev Sparing
    {α : Type}
    (records : List SessionRecord)
    (step : Nat)
    (p : EngineM α) :
    Prop :=
  Uses (Op.Spares records step) (fun _ => True) p

section Sparing

variable {engine : AgentEngine}
variable {context : AgentContext}
variable {trigger : AgentTrigger}
variable {step stepsExecuted failures : Nat}
variable {emittedEvents : List KernelEventRecord}
variable {records : List SessionRecord}

theorem OfStep.mono
    {records more : List SessionRecord}
    {graphId : String}
    (hOf : OfStep records step graphId)
    (hGraphs : toolGraphs records ⊆ toolGraphs more) :
    OfStep more step graphId := by
  rcases hOf with hNew | ⟨graph, hMem, hSame⟩
  · exact .inl hNew
  · exact .inr ⟨graph, hGraphs hMem, hSame⟩

theorem Op.Marginal.spares
    {op : Op}
    (hMarginal : op.Marginal) :
    op.Spares records step := by
  cases op with
  | append record =>
      cases record with
      | approvalResolution _ => exact hMarginal
      | toolExecutionGraph _ => exact hMarginal.elim
      | toolNodeCheckpoint _ => exact hMarginal.elim
      | _ => trivial
  | _ => trivial

theorem PlannedRequest.spares
    {calls : List PlannedSkillCall}
    {op : Op}
    (hRequest : PlannedRequest engine context
      (existingOrNewGraph context step calls) op) :
    op.Spares context.records step := by
  have hOf := @ofStep_existingOrNewGraph context step calls
  rcases hRequest with hGraph | hFuel | hBatch
  · subst hGraph
    exact hOf
  · subst hFuel
    trivial
  · cases hBatch with
    | checkpoint hNode hGraph hCall =>
        show OfStep context.records step _
        rw [hGraph]
        exact hOf.1
    | _ => trivial

/- A batch adds to a graph of its step. -/
theorem spares_batch
    {calls : List PlannedSkillCall}
    {approvalOverride : Bool}
    (hGraphs :
      toolGraphs context.records ⊆ toolGraphs records) :
    Sparing records step
      (executePlannedCalls engine context step calls
        approvalOverride) := by
  have hOwn : Sparing context.records step
      (executePlannedCalls engine context step calls
        approvalOverride) := by
    by_cases hWaits : Waits engine calls approvalOverride
    · have hYes : (!approvalOverride) = true ∧
          approvalCalls engine calls ≠ [] :=
        ⟨by simp [hWaits.1], hWaits.2⟩
      unfold executePlannedCalls Sparing
      rw [if_pos hYes]
      exact ⟨trivial, fun _ => trivial⟩
    · exact Uses.mono (fun _ h => h.spares)
        (fun _ _ => trivial) (uses_executePlannedCalls hWaits)
  refine Uses.mono ?_ (fun _ h => h) hOwn
  intro op hSpares
  unfold Op.Spares at hSpares ⊢
  split
  · exact hSpares
  · exact ⟨hSpares.1.mono hGraphs, hSpares.2⟩
  · exact hSpares.mono hGraphs
  · trivial

theorem spares_finishAdvance
    {stopReason : StopReason}
    {response detail : Option String}
    {resumeToken : Option ResumeToken} :
    Sparing records step
      (finishAdvance engine context stopReason response
        detail stepsExecuted resumeToken emittedEvents) :=
  Uses.bind (V := fun _ => True)
    (Uses.mono (fun _ h => h.marginal.spares) (fun _ h => h)
      aside_finish)
    fun _ _ => trivial

theorem spares_appendAndPush
    {record : SessionRecord}
    (hSpares : (Op.append record).Spares records step) :
    Sparing records step (appendAndPush context record) :=
  Uses.mono (fun _ h => h) (fun _ _ => trivial)
    (uses_appendAndPush hSpares)

theorem spares_suspend
    {reason : SuspendReason}
    {pendingCalls : List PlannedSkillCall}
    {resumeToken : ResumeToken} :
    Sparing records step
      (suspend engine context stepsExecuted reason
        pendingCalls resumeToken emittedEvents) :=
  Uses.bind (spares_appendAndPush trivial) fun _ _ =>
    spares_finishAdvance

theorem spares_recordMemoryAction
    {event : KernelEvent}
    {source : String}
    {content : Json} :
    Sparing records step
      (recordMemoryAction event source content context
        emittedEvents) := by
  have hUuid : Sparing records step newUuid :=
    uses_newUuid trivial
  refine Uses.bind hUuid ?_
  intro eventId _
  refine Uses.bind (spares_appendAndPush trivial) ?_
  intro context' _
  refine Uses.bind hUuid ?_
  intro observationEventId _
  refine Uses.bind hUuid ?_
  intro observationId _
  exact Uses.bind (spares_appendAndPush trivial)
    fun _ _ => trivial

/- The batch of an action is one of the action's step. -/
theorem spares_executeAction
    {action : AgentAction}
    (hGraphs :
      toolGraphs context.records ⊆ toolGraphs records) :
    Sparing records step
      (executeAction engine context action step
        emittedEvents) := by
  cases action with
  | plan summary candidateActions confidence =>
      refine Uses.bind (V := fun _ => True)
        (uses_newUuid trivial) ?_
      intro deliberationId _
      exact Uses.bind (V := fun _ => True)
        (uses_appendOrFail trivial trivial)
        fun _ _ => trivial
  | respond content => exact spares_finishAdvance
  | yieldWith reason => exact spares_finishAdvance
  | memorySearch query limit =>
      refine ⟨trivial, ?_⟩
      intro page
      exact spares_recordMemoryAction
  | memoryArchive content => exact spares_recordMemoryAction
  | continueWith _ => trivial
  | suspend reason pendingCalls resumeToken =>
      exact spares_suspend
  | callSkills calls =>
      refine Uses.bind (spares_batch hGraphs) ?_
      intro execution _
      cases execution with
      | suspended reason pendingCalls resumeToken =>
          exact spares_suspend
      | executed batch =>
          refine Uses.bind
            (uses_recordResults fun _ => trivial) ?_
          intro r _
          cases r <;> trivial
  | delegate target task correlationId resumeToken =>
      refine Uses.bind (spares_appendAndPush trivial) ?_
      intro context' _
      refine Uses.bind (spares_appendAndPush trivial) ?_
      intro context'' _
      exact spares_finishAdvance

theorem toolGraphs_push
    {record : SessionRecord}
    (hOther : record.asToolExecutionGraph = none) :
    toolGraphs (context.push record).records =
      toolGraphs context.records := by
  unfold toolGraphs AgentContext.push
  rw [List.filterMap_append, List.filterMap_cons_none hOther]
  exact List.append_nil _

theorem spares_followDecision
    {decision : ProviderDecision}
    (hGraphs :
      toolGraphs context.records ⊆ toolGraphs records) :
    Sparing records step
      (followDecision engine context decision step
        emittedEvents) := by
  have hMetadata :
      Uses (Op.Spares records step)
        (fun context' => toolGraphs context'.records =
          toolGraphs context.records)
        (persistProviderMetadata decision context) := by
    have hPush :
        ∀ {context : AgentContext} {record : SessionRecord},
        (Op.append record).Spares records step →
        record.asToolExecutionGraph = none →
          Uses (Op.Spares records step)
            (fun context' => toolGraphs context'.records =
              toolGraphs context.records)
            (appendAndPush context record) := by
      intro context record hSpares hOther
      refine Uses.mono (fun _ h => h) ?_
        (uses_appendAndPush hSpares)
      rintro _ rfl
      exact toolGraphs_push hOther
    unfold persistProviderMetadata
    cases decision.usage with
    | none =>
        cases decision.cache with
        | none => rfl
        | some cache => exact hPush trivial rfl
    | some usage =>
        refine Uses.bind (hPush trivial rfl) ?_
        intro context' hSame
        cases decision.cache with
        | none => exact hSame
        | some cache =>
            rw [← hSame]
            exact hPush trivial rfl
  unfold followDecision
  refine Uses.bind hMetadata ?_
  intro context' hSame
  refine Uses.bind (uses_append trivial) ?_
  intro answer _
  cases answer with
  | error error => trivial
  | ok _ =>
      apply spares_executeAction
      rw [toolGraphs_push rfl, hSame]
      exact hGraphs

/- A step adds to graphs of its own number. -/
theorem spares_performSingleStep
    (hGraphs :
      toolGraphs context.records ⊆ toolGraphs records) :
    Sparing records step
      (performSingleStep engine context trigger step failures
        emittedEvents) := by
  unfold performSingleStep
  split
  · refine Uses.bind (uses_append trivial) ?_
    intro _ _
    exact spares_executeAction hGraphs
  · refine Uses.bind (V := fun _ => True)
      (Uses.mono (fun _ h => h.marginal.spares) (fun _ h => h)
        aside_policyOutcome) ?_
    intro stop _
    cases stop with
    | some outcome => trivial
    | none =>
        refine ⟨trivial, ?_⟩
        intro answer
        rcases answer with _ | error | decision
        · exact spares_finishAdvance
        · exact spares_finishAdvance
        · exact spares_followDecision hGraphs

end Sparing

end RainEngine
