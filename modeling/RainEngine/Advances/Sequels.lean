import RainEngine.Advances.Footprint
import RainEngine.Advances.Notes

/-
  This file bounds what follows a decision and what follows an
  outcome. An action takes no decision of its own and ends for
  no reason of the policy guard; an outcome is followed by the
  notes of the self-improvement.

  Key definitions include:
    * `StopReason.isGuarded`
    * `Op.Follows`
    * `Op.Ends`

  Key theorems include:
    * `follows_executeAction`
    * `OnHost.safe_finish`
-/

namespace RainEngine

open Effects

------------------------------------------------------------
-- What Follows A Decision
------------------------------------------------------------

/- A reason the policy guard stops for. -/
def StopReason.isGuarded : StopReason → Bool
| .cancelled => true
| .deadlineExceeded => true
| .maxStepsReached => true
| .policyAborted => true
| _ => false

/- A request that may follow a decision. -/
def Op.Follows : Op → Prop
| .append (.modelDecision _) => False
| .append (.executionPlan _) => False
| .append (.outcome outcome) =>
    outcome.stopReason.isGuarded = false
| .generateAction _ _ => False
| _ => True

/- A part whose requests may follow a decision. -/
abbrev Following
    {α : Type}
    (p : EngineM α) :
    Prop :=
  Uses Op.Follows (fun _ => True) p

section Following

variable {engine : AgentEngine}
variable {context : AgentContext}
variable {stepsExecuted : Nat}
variable {emittedEvents : List KernelEventRecord}

theorem Op.OfBatch.follows
    {op : Op}
    (hBatch : op.OfBatch) :
    op.Follows := by
  cases op with
  | append record =>
      cases record <;> trivial
  | generateAction _ _ => exact hBatch
  | _ => trivial

theorem IsAppraisal.follows
    {record : SessionRecord}
    (hAppraisal : IsAppraisal record) :
    (Op.append record).Follows := by
  cases record <;> trivial

theorem follows_newUuid : Following newUuid :=
  uses_newUuid trivial

theorem follows_appendAndPush
    {record : SessionRecord}
    (hFollows : (Op.append record).Follows) :
    Following (appendAndPush context record) :=
  Uses.mono (fun _ h => h) (fun _ _ => trivial)
    (uses_appendAndPush hFollows)

theorem follows_finishAdvance
    {stopReason : StopReason}
    {response detail : Option String}
    {resumeToken : Option ResumeToken}
    (hReason : stopReason.isGuarded = false) :
    Following
      (finishAdvance engine context stopReason response
        detail stepsExecuted resumeToken emittedEvents) := by
  refine Uses.bind (V := fun _ => True) ?_ fun _ _ => trivial
  apply uses_finish
  · intro record hSame
    rw [← hSame] at hReason
    exact hReason
  · trivial
  · intro record hAppraisal
    exact hAppraisal.follows
  · intro snapshot
    trivial

theorem follows_suspend
    {step : Nat}
    {reason : SuspendReason}
    {pendingCalls : List PlannedSkillCall}
    {resumeToken : ResumeToken} :
    Following
      (suspend engine context step reason pendingCalls
        resumeToken emittedEvents) :=
  Uses.bind (follows_appendAndPush trivial) fun _ _ =>
    follows_finishAdvance rfl

theorem follows_recordMemoryAction
    {event : KernelEvent}
    {source : String}
    {content : Json} :
    Following
      (recordMemoryAction event source content context
        emittedEvents) := by
  refine Uses.bind follows_newUuid ?_
  intro eventId _
  refine Uses.bind (follows_appendAndPush trivial) ?_
  intro context' _
  refine Uses.bind follows_newUuid ?_
  intro observationEventId _
  refine Uses.bind follows_newUuid ?_
  intro observationId _
  exact Uses.bind (follows_appendAndPush trivial)
    fun _ _ => trivial

theorem follows_executeCalls
    {calls : List PlannedSkillCall} :
    Following
      (executeCalls engine context calls stepsExecuted
        emittedEvents) := by
  refine Uses.bind (V := fun _ => True) ?_ ?_
  · exact Uses.mono (fun _ h => h.follows) (fun _ h => h)
      uses_batch
  · intro execution _
    cases execution with
    | suspended reason pendingCalls resumeToken =>
        exact follows_suspend
    | executed batch =>
        refine Uses.bind
          (uses_recordResults fun _ => trivial) ?_
        intro r _
        cases r <;> trivial

/- An action takes no decision of its own. -/
theorem follows_executeAction
    {action : AgentAction} :
    Following
      (executeAction engine context action stepsExecuted
        emittedEvents) := by
  cases action with
  | plan summary candidateActions confidence =>
      refine Uses.bind follows_newUuid ?_
      intro deliberationId _
      exact Uses.bind (V := fun _ => True)
        (uses_appendOrFail trivial trivial)
        fun _ _ => trivial
  | respond content => exact follows_finishAdvance rfl
  | yieldWith reason => exact follows_finishAdvance rfl
  | memorySearch query limit =>
      refine ⟨trivial, ?_⟩
      intro page
      exact follows_recordMemoryAction
  | memoryArchive content => exact follows_recordMemoryAction
  | continueWith _ => trivial
  | suspend reason pendingCalls resumeToken =>
      exact follows_suspend
  | callSkills calls => exact follows_executeCalls
  | delegate target task correlationId resumeToken =>
      refine Uses.bind (follows_appendAndPush trivial) ?_
      intro context' _
      refine Uses.bind (follows_appendAndPush trivial) ?_
      intro context'' _
      exact follows_finishAdvance rfl

end Following

------------------------------------------------------------
-- What Follows An Outcome
------------------------------------------------------------

/- A request that may follow an outcome. -/
def Op.Ends : Op → Prop
| .append record => IsAppraisal record
| .newUuid => True
| .setProjection _ => True
| _ => False

theorem Op.Ends.follows
    {op : Op}
    (hEnds : op.Ends) :
    op.Follows := by
  cases op with
  | append record => exact IsAppraisal.follows hEnds
  | generateAction _ _ => exact hEnds
  | _ => trivial

/-
  The end of an advance: the outcome is appended, the
  self-improvement takes its notes, and the outcome returned
  is the one that has been appended.
-/
theorem OnHost.safe_finish
    {M : Machine Op Answer World}
    {P : World → Op → Prop}
    {engine : AgentEngine}
    {context : AgentContext}
    {stopReason : StopReason}
    {response detail : Option String}
    {stepsExecuted : Nat}
    {resumeToken : Option ResumeToken}
    {w : World}
    (hHost : OnHost M)
    (hEnds : ∀ {w op}, op.Ends → P w op)
    (hOutcome : ∀ outcome : OutcomeRecord,
      outcome.stopReason = stopReason →
      outcome.detail = detail →
      outcome.stepsExecuted = stepsExecuted →
        P w (.append (.outcome outcome))) :
    Safe M P
      (fun outcome _ => outcome.stopReason = stopReason)
      (fun _ _ => True)
      (finish engine context stopReason response detail
        stepsExecuted resumeToken) w := by
  have hRest : ∀ (w' : World) (outcome : OutcomeRecord),
      outcome.stopReason = stopReason →
      Safe M P
        (fun outcome _ => outcome.stopReason = stopReason)
        (fun _ _ => True)
        (runSelfImprovement engine
            (context.push (.outcome outcome)) outcome >>=
          fun context => Program.perform (Op.setProjection
              { sessionId := context.sessionId
                records := context.records
                latestOutcome := some outcome }) >>=
            fun _ => pure (EngineOutcome.fromRecord outcome))
        w' := by
    intro w' outcome hReason
    have hUses : Uses Op.Ends
        (fun outcome : EngineOutcome =>
          outcome.stopReason = stopReason)
        (runSelfImprovement engine
            (context.push (.outcome outcome)) outcome >>=
          fun context => Program.perform (Op.setProjection
              { sessionId := context.sessionId
                records := context.records
                latestOutcome := some outcome }) >>=
            fun _ =>
              pure (EngineOutcome.fromRecord outcome)) := by
      refine Uses.bind
        (uses_runSelfImprovement trivial
          fun _ hAppraisal => hAppraisal) ?_
      intro context' _
      exact ⟨trivial, fun _ => hReason⟩
    exact Safe.mono (fun _ _ h => h) (fun _ _ h => h.1)
      (fun _ _ _ => trivial)
      (Uses.safe (I := fun _ => True) hUses
        (fun _ _ _ hOp => hEnds hOp)
        (fun _ _ _ _ _ _ => trivial) trivial)
  unfold finish
  dsimp only
  rw [Safe.bind_iff]
  apply hHost.safe_append (hOutcome _ rfl rfl rfl)
  · exact hRest _ _ rfl
  · intro error _
    exact hRest _ _ rfl

end RainEngine
