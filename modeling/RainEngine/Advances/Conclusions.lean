import RainEngine.Effects.Failures
import RainEngine.Advances.Footprint
import RainEngine.Advances.Notes

/-
  This file proves that an advance appends no outcome before
  it is concluded: each of its paths returns, throws, or goes
  on as the program that ends an advance with an outcome.

  Key definitions include:
    * `Op.Concludes`
    * `Concluding`
    * `Concludes`
    * `Preliminary`

  Key theorems include:
    * `concludes_executeAction`
    * `concludes_performSingleStep`
    * `concludes_advance`
-/

namespace RainEngine

open Effects

------------------------------------------------------------
-- What Comes Before An Outcome
------------------------------------------------------------

/- The append of an outcome. -/
def Op.Concludes : Op → Prop
| .append (.outcome _) => True
| _ => False

/- Programs that end an advance with an outcome. -/
def Concluding
    (engine : AgentEngine)
    (p : EngineM AdvanceResult) :
    Prop :=
  ∃ context stopReason response detail stepsExecuted
      resumeToken emittedEvents,
    stopReason ≠ .storageFailure ∧
      p = finishAdvance engine context stopReason response
        detail stepsExecuted resumeToken emittedEvents

/- No outcome is appended before the advance is concluded. -/
abbrev Concludes
    (engine : AgentEngine)
    (p : EngineM AdvanceResult) :
    Prop :=
  Leads (fun op => ¬op.Concludes) (Concluding engine) p

/- A part of an advance that appends no outcome. -/
abbrev Preliminary
    {α : Type}
    (p : EngineM α) :
    Prop :=
  Uses (fun op => ¬op.Concludes) (fun _ => True) p

section Preliminaries

variable {engine : AgentEngine}
variable {context : AgentContext}

theorem preliminary_batch
    {step : Nat}
    {calls : List PlannedSkillCall}
    {approvalOverride : Bool} :
    Preliminary
      (executePlannedCalls engine context step calls
        approvalOverride) := by
  refine Uses.mono ?_ (fun _ h => h) uses_batch
  intro op hBatch hConcludes
  cases op with
  | append record =>
      cases record with
      | outcome _ => exact hBatch
      | _ => exact hConcludes
  | _ => exact hConcludes

theorem Op.Incidental.not_concludes
    {op : Op}
    (hIncidental : op.Incidental) :
    ¬op.Concludes := by
  intro hConcludes
  cases op with
  | append record =>
      cases record with
      | outcome _ => exact hIncidental
      | _ => exact hConcludes
  | _ => exact hConcludes

theorem Op.Quiet.not_concludes
    {op : Op}
    (hQuiet : op.Quiet) :
    ¬op.Concludes := by
  intro hConcludes
  cases op with
  | append record => exact hQuiet
  | _ => exact hConcludes

theorem Incidental.preliminary
    {α : Type}
    {p : EngineM α}
    (hUses : Incidental p) :
    Preliminary p :=
  Uses.mono (fun _ h => h.not_concludes) (fun _ h => h) hUses

theorem preliminary_appendOrFail
    {record : SessionRecord}
    (hRecord : record.isOutcome = false) :
    Preliminary (appendOrFail record) := by
  refine uses_appendOrFail ?_ trivial
  intro hConcludes
  cases record with
  | outcome _ => cases hRecord
  | _ => exact hConcludes

theorem preliminary_appendAndPush
    {record : SessionRecord}
    (hRecord : record.isOutcome = false) :
    Preliminary (appendAndPush context record) :=
  Uses.bind (preliminary_appendOrFail hRecord)
    fun _ _ => trivial

theorem preliminary_recordResults
    {results : List ToolResultRecord} :
    Preliminary (recordResults results context) :=
  Uses.mono (fun _ h => h) (fun _ _ => trivial)
    (uses_recordResults fun _ => id)

theorem preliminary_recordResultsOrFail
    {results : List ToolResultRecord} :
    Preliminary (recordResultsOrFail results context) :=
  Uses.mono (fun _ h => h) (fun _ _ => trivial)
    (uses_recordResultsOrFail fun _ => id)

end Preliminaries

------------------------------------------------------------
-- Advances
------------------------------------------------------------

section Advances

variable {engine : AgentEngine}
variable {context : AgentContext}
variable {trigger : AgentTrigger}
variable {stepsExecuted failures : Nat}
variable {emittedEvents : List KernelEventRecord}

theorem concludes_finishAdvance
    {stopReason : StopReason}
    {response detail : Option String}
    {resumeToken : Option ResumeToken}
    (hReason : stopReason ≠ .storageFailure) :
    Concludes engine
      (finishAdvance engine context stopReason response
        detail stepsExecuted resumeToken emittedEvents) :=
  .arrived ⟨context, stopReason, response, detail,
    stepsExecuted, resumeToken, emittedEvents, hReason, rfl⟩

theorem concludes_suspend
    {reason : SuspendReason}
    {pendingCalls : List PlannedSkillCall}
    {resumeToken : ResumeToken} :
    Concludes engine
      (suspend engine context stepsExecuted reason
        pendingCalls resumeToken emittedEvents) := by
  refine Leads.bind (preliminary_appendAndPush rfl) ?_
  intro context' _
  exact concludes_finishAdvance (by simp)

theorem concludes_recordMemoryAction
    {event : KernelEvent}
    {source : String}
    {content : Json} :
    Concludes engine
      (recordMemoryAction event source content context
        emittedEvents) := by
  refine Leads.bind (uses_newUuid id) ?_
  intro eventId _
  refine Leads.bind (preliminary_appendAndPush rfl) ?_
  intro context' _
  refine Leads.bind (uses_newUuid id) ?_
  intro observationEventId _
  refine Leads.bind (uses_newUuid id) ?_
  intro observationId _
  refine Leads.bind (preliminary_appendAndPush rfl) ?_
  intro context'' _
  exact .pure

theorem concludes_executeCalls
    {calls : List PlannedSkillCall} :
    Concludes engine
      (executeCalls engine context calls stepsExecuted
        emittedEvents) := by
  refine Leads.bind preliminary_batch ?_
  intro execution _
  cases execution with
  | executed batch =>
      refine Leads.bind preliminary_recordResults ?_
      intro r _
      cases r <;> exact .pure
  | suspended reason pendingCalls resumeToken =>
      exact concludes_suspend

theorem concludes_delegateTask
    {record : DelegationRecord} :
    Concludes engine
      (delegateTask engine context record stepsExecuted
        emittedEvents) := by
  refine Leads.bind (preliminary_appendAndPush rfl) ?_
  intro context' _
  refine Leads.bind (preliminary_appendAndPush rfl) ?_
  intro context'' _
  exact concludes_finishAdvance (by simp)

theorem concludes_executeAction
    {action : AgentAction} :
    Concludes engine
      (executeAction engine context action stepsExecuted
        emittedEvents) := by
  cases action with
  | plan summary candidateActions confidence =>
      refine Leads.bind (uses_newUuid id) ?_
      intro deliberationId _
      refine Leads.bind (preliminary_appendOrFail rfl) ?_
      intro _ _
      exact .pure
  | respond content => exact concludes_finishAdvance (by simp)
  | yieldWith reason => exact concludes_finishAdvance (by simp)
  | memorySearch query limit =>
      refine Leads.perform id ?_
      intro page
      exact concludes_recordMemoryAction
  | memoryArchive content =>
      exact concludes_recordMemoryAction
  | continueWith _ => exact .pure
  | suspend reason pendingCalls resumeToken =>
      exact concludes_suspend
  | callSkills calls => exact concludes_executeCalls
  | delegate target task correlationId resumeToken =>
      exact concludes_delegateTask

theorem concludes_askProvider :
    Concludes engine
      (askProvider engine context trigger stepsExecuted
        emittedEvents) := by
  refine Leads.perform id ?_
  intro answer
  cases answer with
  | none => exact concludes_finishAdvance (by simp)
  | some answer =>
      cases answer with
      | error error => exact concludes_finishAdvance (by simp)
      | ok decision =>
          refine Leads.bind
            incidental_persistProviderMetadata.preliminary ?_
          intro context' _
          refine Leads.bind (uses_append id) ?_
          intro stored _
          cases stored with
          | error error => exact .pure
          | ok _ => exact concludes_executeAction

theorem concludes_performSingleStep :
    Concludes engine
      (performSingleStep engine context trigger
        stepsExecuted failures emittedEvents) := by
  unfold performSingleStep
  split
  · refine Leads.bind (uses_append id) ?_
    intro _ _
    exact concludes_executeAction
  · unfold policyOutcome
    rw [Program.bind_assoc]
    refine Leads.bind
      (uses_policyStop (fun _ => id) (fun _ => id)) ?_
    intro stop hStop
    cases stop with
    | none => exact concludes_askProvider
    | some stop =>
        dsimp only
        rw [Program.bind_assoc]
        exact concludes_finishAdvance (hStop.stored _ _ rfl)

theorem preliminary_findApprovalTarget
    {token : ResumeToken}
    {decision : ApprovalDecision} :
    Preliminary
      (findApprovalTarget context token decision) := by
  unfold findApprovalTarget Preliminary
  rw [Uses.bind_iff, uses_perform]
  refine ⟨id, ?_⟩
  intro answer
  cases answer with
  | error error => trivial
  | ok found => cases found <;> trivial

theorem concludes_approvalStep
    {token : ResumeToken}
    {decision : ApprovalDecision}
    {metadata : Json} :
    Concludes engine
      (approvalStep engine context trigger token decision
        metadata stepsExecuted failures emittedEvents) := by
  refine Leads.bind preliminary_findApprovalTarget ?_
  intro found _
  cases found with
  | none => exact concludes_finishAdvance (by simp)
  | some target =>
      have hResolution :
          Preliminary (recordResolution target metadata) := by
        unfold recordResolution
        split
        · trivial
        · exact preliminary_appendOrFail rfl
      have hResume :
          Preliminary (resumeCalls engine context target) := by
        unfold resumeCalls
        split
        · exact preliminary_batch
        · trivial
      refine Leads.bind hResolution ?_
      intro _ _
      refine Leads.bind hResume ?_
      intro execution _
      cases execution with
      | suspended _ _ _ =>
          exact concludes_finishAdvance (by simp)
      | executed batch =>
          refine Leads.bind preliminary_recordResultsOrFail ?_
          intro context' _
          exact concludes_performSingleStep

theorem concludes_processTrigger
    {request : ProcessRequest}
    {record : TriggerRecord} :
    Concludes engine
      (processTrigger engine request record) := by
  have hLoad : Preliminary (loadTriggerSnapshot record) := by
    unfold loadTriggerSnapshot Preliminary
    rw [Uses.bind_iff, uses_perform]
    refine ⟨id, ?_⟩
    intro cached
    cases cached with
    | none => exact ⟨id, fun _ => trivial⟩
    | some cached => trivial
  refine Leads.bind hLoad ?_
  intro loaded _
  cases loaded with
  | error error => exact .pure
  | ok snapshot =>
      refine Leads.bind (uses_append id) ?_
      intro _ _
      refine Leads.bind incidental_refreshSnapshot.preliminary ?_
      intro refreshed _
      refine Leads.bind incidental_runPlanner.preliminary ?_
      intro planned _
      unfold triggerStep
      refine Leads.bind (uses_persistKernelEvents fun _ => id)
        ?_
      intro context' _
      dsimp only
      split
      · exact concludes_approvalStep
      · exact concludes_performSingleStep

theorem concludes_advanceTrigger
    {request : ProcessRequest} :
    Concludes engine (advanceTrigger engine request) := by
  refine Leads.bind (uses_newUuid id) ?_
  intro triggerId _
  have hPrior :
      Preliminary
        (findPriorOutcome request.idempotencyKey) := by
    unfold findPriorOutcome
    split
    · trivial
    · refine ⟨id, ?_⟩
      intro answer
      cases answer <;> trivial
  refine Leads.bind hPrior ?_
  intro prior _
  cases prior with
  | some prior => exact .pure
  | none =>
      refine Leads.bind (uses_append id) ?_
      intro stored _
      cases stored with
      | error error => exact .pure
      | ok _ => exact concludes_processTrigger

theorem concludes_resumeGraph
    {graph : ToolExecutionGraph}
    {snapshot : SessionSnapshot} :
    Concludes engine
      (resumeGraph engine context trigger graph snapshot) := by
  refine Leads.bind preliminary_batch ?_
  intro execution _
  cases execution with
  | suspended _ _ _ => exact concludes_finishAdvance (by simp)
  | executed batch =>
      refine Leads.bind preliminary_recordResultsOrFail ?_
      intro context' _
      exact concludes_performSingleStep

theorem concludes_continueTrigger
    {request : ContinueRequest}
    {record : TriggerRecord}
    {snapshot : SessionSnapshot} :
    Concludes engine
      (continueTrigger engine request record snapshot) := by
  unfold continueTrigger
  dsimp only
  split
  · exact concludes_resumeGraph
  · exact concludes_performSingleStep

theorem concludes_advanceContinue
    {request : ContinueRequest} :
    Concludes engine (advanceContinue engine request) := by
  refine Leads.perform id ?_
  intro answer
  cases answer with
  | error error => exact .pure
  | ok snapshot =>
      dsimp only
      split
      · exact .request id fun _ => .pure
      · exact concludes_continueTrigger

/- An advance appends no outcome before it is concluded. -/
theorem concludes_advance
    (request : AdvanceRequest) :
    Concludes engine (advance engine request) := by
  cases request with
  | trigger request => exact concludes_advanceTrigger
  | continueWith request => exact concludes_advanceContinue

end Advances

end RainEngine
