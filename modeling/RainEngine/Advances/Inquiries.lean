import RainEngine.Advances.Conclusions

/-
  This file proves that an advance gets to its provider by
  routine requests. Each of its paths asks the provider for
  the next action at one point, if at all, and nothing of the
  provider's answers is recorded before.

  Key definitions include:
    * `SessionRecord.isAnswer`
    * `Op.Routine`
    * `Inquires`

  Key theorems include:
    * `routine_executeAction`
    * `inquires_performSingleStep`
    * `inquires_advance`
-/

namespace RainEngine

open Effects

------------------------------------------------------------
-- Routine Requests
------------------------------------------------------------

/- The records of what the provider has answered. -/
def SessionRecord.isAnswer : SessionRecord → Bool
| .providerUsage _ => true
| .providerCache _ => true
| .modelDecision _ => true
| _ => false

/-
  A request that neither asks for the next action, nor records
  an answer of the provider, nor reads the cached projection.
-/
def Op.Routine : Op → Prop
| .append record => record.isAnswer = false
| .generateAction timeoutMs _ => timeoutMs = none
| .getProjection => False
| _ => True

/- A part of an advance that does nothing else. -/
abbrev Routine
    {α : Type}
    (p : EngineM α) :
    Prop :=
  Uses Op.Routine (fun _ => True) p

section Parts

variable {engine : AgentEngine}
variable {context : AgentContext}
variable {trigger : AgentTrigger}
variable {stepsExecuted failures : Nat}
variable {emittedEvents : List KernelEventRecord}

theorem IsAppraisal.routine
    {record : SessionRecord}
    (hAppraisal : IsAppraisal record) :
    (Op.append record).Routine := by
  cases record <;> first | rfl | exact hAppraisal.elim

theorem routine_batch
    {step : Nat}
    {calls : List PlannedSkillCall}
    {approvalOverride : Bool} :
    Routine
      (executePlannedCalls engine context step calls
        approvalOverride) := by
  refine Uses.mono ?_ (fun _ h => h) uses_batch
  intro op hBatch
  cases op with
  | append record =>
      cases record <;> first | rfl | exact hBatch.elim
  | generateAction _ _ => exact hBatch.elim
  | getProjection => exact hBatch
  | _ => trivial

theorem routine_appendAndPush
    {record : SessionRecord}
    (hRecord : record.isAnswer = false) :
    Routine (appendAndPush context record) :=
  Uses.mono (fun _ h => h) (fun _ _ => trivial)
    (uses_appendAndPush (S := Op.Routine) hRecord)

theorem routine_recordResultsOrFail
    {results : List ToolResultRecord} :
    Routine (recordResultsOrFail results context) :=
  Uses.mono (fun _ h => h) (fun _ _ => trivial)
    (uses_recordResultsOrFail fun _ => rfl)

theorem routine_finish
    {stopReason : StopReason}
    {response detail : Option String}
    {resumeToken : Option ResumeToken} :
    Routine
      (finish engine context stopReason response detail
        stepsExecuted resumeToken) :=
  uses_finish (fun _ _ => rfl) trivial
    (fun _ hAppraisal => hAppraisal.routine) fun _ => trivial

theorem routine_finishAdvance
    {stopReason : StopReason}
    {response detail : Option String}
    {resumeToken : Option ResumeToken} :
    Routine
      (finishAdvance engine context stopReason response
        detail stepsExecuted resumeToken emittedEvents) :=
  Uses.bind routine_finish fun _ _ => trivial

theorem routine_policyOutcome :
    Routine
      (policyOutcome engine context stepsExecuted
        failures) := by
  unfold policyOutcome
  refine Uses.bind
    (uses_policyStop (fun _ => trivial) fun _ => trivial) ?_
  intro stop _
  cases stop with
  | none => trivial
  | some stop =>
      exact Uses.bind routine_finish fun _ _ => trivial

theorem routine_suspend
    {reason : SuspendReason}
    {pendingCalls : List PlannedSkillCall}
    {resumeToken : ResumeToken} :
    Routine
      (suspend engine context stepsExecuted reason
        pendingCalls resumeToken emittedEvents) :=
  Uses.bind (routine_appendAndPush rfl) fun _ _ =>
    routine_finishAdvance

theorem routine_recordMemoryAction
    {event : KernelEvent}
    {source : String}
    {content : Json} :
    Routine
      (recordMemoryAction event source content context
        emittedEvents) := by
  refine Uses.bind (uses_newUuid trivial) ?_
  intro eventId _
  refine Uses.bind (routine_appendAndPush rfl) ?_
  intro context' _
  refine Uses.bind (uses_newUuid trivial) ?_
  intro observationEventId _
  refine Uses.bind (uses_newUuid trivial) ?_
  intro observationId _
  refine Uses.bind (routine_appendAndPush rfl) ?_
  intro context'' _
  trivial

theorem routine_executeCalls
    {calls : List PlannedSkillCall} :
    Routine
      (executeCalls engine context calls stepsExecuted
        emittedEvents) := by
  refine Uses.bind routine_batch ?_
  intro execution _
  cases execution with
  | executed batch =>
      refine Uses.bind (Uses.mono (fun _ h => h)
        (fun _ _ => trivial)
        (uses_recordResults fun _ => rfl)) ?_
      intro r _
      cases r <;> trivial
  | suspended reason pendingCalls resumeToken =>
      exact routine_suspend

theorem routine_delegateTask
    {record : DelegationRecord} :
    Routine
      (delegateTask engine context record stepsExecuted
        emittedEvents) := by
  refine Uses.bind (routine_appendAndPush rfl) ?_
  intro context' _
  refine Uses.bind (routine_appendAndPush rfl) ?_
  intro context'' _
  exact routine_finishAdvance

/- An action asks the provider for nothing. -/
theorem routine_executeAction
    {action : AgentAction} :
    Routine
      (executeAction engine context action stepsExecuted
        emittedEvents) := by
  cases action with
  | plan summary candidateActions confidence =>
      refine Uses.bind (uses_newUuid trivial) ?_
      intro deliberationId _
      refine Uses.bind (V := fun _ => True)
        (uses_appendOrFail (by rfl) trivial) ?_
      intro _ _
      trivial
  | respond content => exact routine_finishAdvance
  | yieldWith reason => exact routine_finishAdvance
  | memorySearch query limit =>
      refine ⟨trivial, ?_⟩
      intro page
      exact routine_recordMemoryAction
  | memoryArchive content => exact routine_recordMemoryAction
  | continueWith _ => trivial
  | suspend reason pendingCalls resumeToken =>
      exact routine_suspend
  | callSkills calls => exact routine_executeCalls
  | delegate target task correlationId resumeToken =>
      exact routine_delegateTask

theorem routine_summarizeIfLong
    {request : ProcessRequest}
    {snapshot : SessionSnapshot} :
    Routine (summarizeIfLong engine request snapshot) := by
  unfold summarizeIfLong
  split
  · refine Uses.bind
      (uses_summarizeHistory (fun _ => rfl) trivial) ?_
    intro summary _
    cases summary with
    | none => trivial
    | some summary =>
        exact ⟨rfl, fun _ => uses_refreshSnapshot trivial⟩
  · trivial

theorem routine_runPlanner
    {request : ProcessRequest}
    {snapshot : SessionSnapshot} :
    Routine (runPlanner engine request snapshot) := by
  unfold runPlanner Routine
  split
  · rw [Uses.bind_iff, uses_perform]
    refine ⟨trivial, ?_⟩
    intro output
    refine Uses.bind
      (uses_appendPlannedEvents trivial fun _ => rfl) ?_
    intro _ _
    refine Uses.bind
      (uses_appendProposedPlan trivial fun _ _ => rfl) ?_
    intro _ _
    dsimp only
    split
    · exact Uses.bind (uses_refreshSnapshot trivial)
        fun _ _ => routine_summarizeIfLong
    · exact routine_summarizeIfLong
  · trivial

theorem routine_findApprovalTarget
    {token : ResumeToken}
    {decision : ApprovalDecision} :
    Routine (findApprovalTarget context token decision) := by
  unfold findApprovalTarget Routine
  rw [Uses.bind_iff, uses_perform]
  refine ⟨trivial, ?_⟩
  intro answer
  cases answer with
  | error error => trivial
  | ok found => cases found <;> trivial

theorem routine_recordResolution
    {target : ApprovalTarget}
    {metadata : Json} :
    Routine (recordResolution target metadata) := by
  unfold recordResolution
  split
  · trivial
  · exact uses_appendOrFail (by rfl) trivial

theorem routine_resumeCalls
    {target : ApprovalTarget} :
    Routine (resumeCalls engine context target) := by
  unfold resumeCalls
  split
  · exact routine_batch
  · trivial

theorem routine_findPriorOutcome
    {key : Option String} :
    Routine (findPriorOutcome key) := by
  unfold findPriorOutcome
  split
  · trivial
  · refine ⟨trivial, ?_⟩
    intro answer
    cases answer <;> trivial

end Parts

------------------------------------------------------------
-- Before The Provider Is Asked
------------------------------------------------------------

/- Programs that ask the provider for the next action. -/
def Inquiring
    (engine : AgentEngine)
    (p : EngineM AdvanceResult) :
    Prop :=
  ∃ context trigger stepsExecuted emittedEvents,
    p = askProvider engine context trigger stepsExecuted
      emittedEvents

/- All is routine until the provider is asked. -/
abbrev Inquires
    (engine : AgentEngine)
    (p : EngineM AdvanceResult) :
    Prop :=
  Leads Op.Routine (Inquiring engine) p

section Inquiries

variable {engine : AgentEngine}
variable {context : AgentContext}
variable {trigger : AgentTrigger}
variable {stepsExecuted failures : Nat}
variable {emittedEvents : List KernelEventRecord}

/- A routine program never asks for the next action. -/
theorem Routine.inquires
    {p : EngineM AdvanceResult}
    (hRoutine : Routine p) :
    Inquires engine p :=
  Leads.of_uses hRoutine

theorem inquires_performSingleStep :
    Inquires engine
      (performSingleStep engine context trigger
        stepsExecuted failures emittedEvents) := by
  unfold performSingleStep
  split
  · exact .request (by rfl) fun _ =>
      routine_executeAction.inquires
  · refine Leads.bind routine_policyOutcome ?_
    intro stop _
    cases stop with
    | some outcome => exact .pure
    | none => exact .arrived ⟨_, _, _, _, rfl⟩

theorem inquires_approvalStep
    {token : ResumeToken}
    {decision : ApprovalDecision}
    {metadata : Json} :
    Inquires engine
      (approvalStep engine context trigger token decision
        metadata stepsExecuted failures emittedEvents) := by
  refine Leads.bind routine_findApprovalTarget ?_
  intro found _
  cases found with
  | none => exact routine_finishAdvance.inquires
  | some target =>
      refine Leads.bind routine_recordResolution ?_
      intro _ _
      refine Leads.bind routine_resumeCalls ?_
      intro execution _
      cases execution with
      | suspended _ _ _ =>
          exact routine_finishAdvance.inquires
      | executed batch =>
          exact Leads.bind routine_recordResultsOrFail
            fun _ _ => inquires_performSingleStep

theorem inquires_triggerStep
    {request : ProcessRequest}
    {triggerId : String}
    {snapshot : SessionSnapshot} :
    Inquires engine
      (triggerStep engine request triggerId snapshot) := by
  unfold triggerStep
  refine Leads.bind
    (uses_persistKernelEvents (S := Op.Routine)
      fun _ => rfl) ?_
  intro context' _
  dsimp only
  split
  · exact inquires_approvalStep
  · exact inquires_performSingleStep

theorem inquires_resumeGraph
    {graph : ToolExecutionGraph}
    {snapshot : SessionSnapshot} :
    Inquires engine
      (resumeGraph engine context trigger graph snapshot) := by
  refine Leads.bind routine_batch ?_
  intro execution _
  cases execution with
  | suspended _ _ _ => exact routine_finishAdvance.inquires
  | executed batch =>
      exact Leads.bind routine_recordResultsOrFail
        fun _ _ => inquires_performSingleStep

theorem inquires_advanceContinue
    {request : ContinueRequest} :
    Inquires engine (advanceContinue engine request) := by
  refine Leads.perform trivial ?_
  intro answer
  cases answer with
  | error error => exact .pure
  | ok snapshot =>
      dsimp only
      split
      · exact .request trivial fun _ => .pure
      · unfold continueTrigger
        dsimp only
        split
        · exact inquires_resumeGraph
        · exact inquires_performSingleStep

/- What follows once the ledger has been read. -/
theorem inquires_planned
    {request : ProcessRequest}
    {triggerId : String}
    {snapshot : SessionSnapshot} :
    Inquires engine
      (runPlanner engine request snapshot >>=
        triggerStep engine request triggerId) :=
  Leads.bind routine_runPlanner fun _ _ =>
    inquires_triggerStep

end Inquiries

end RainEngine
