import RainEngine.Advances.Notes

/-
  This file proves the rules for the parts of an advance that
  follow a decision: the actions, the policy guard, the single
  step and the end of the advance with its outcome.

  Key theorems include:
    * `Rules.safe_finish`
    * `Rules.steps`
    * `StepRules.safe_recordResults`
    * `StepRules.safe_executeAction`
    * `StepRules.safe_performSingleStep`
-/

namespace RainEngine

open Effects

namespace Rules

variable {M : Machine Op Answer World}
variable {engine : AgentEngine}
variable {A : Assertions}
variable {context : AgentContext}
variable {outcome : OutcomeRecord}
variable {w : World}
variable (hHost : OnHost M)
variable (hRules : Rules M engine A)

include hHost hRules

------------------------------------------------------------
-- The End Of An Advance
------------------------------------------------------------

omit hHost in
/- A finished advance stays finished while it takes notes. -/
theorem annotates :
    Annotates M A.request A.thrown
      (fun context w =>
        A.holds (.finished context outcome) w) where
  uuid := fun hHolds => hRules.quiet hHolds trivial
  issue := hRules.issue
  note := hRules.note
  noted := fun hHolds hNote => (hRules.noted hHolds hNote).2
  thrown := hRules.thrown

/- An advance that finishes returns what it has recorded. -/
theorem safe_finish
    {ready : Bool}
    {stopReason : StopReason}
    {response detail : Option String}
    {stepsExecuted : Nat}
    {resumeToken : Option ResumeToken}
    (hHolds : A.holds (.acting ready context) w) :
    Safe M A.request
      (fun outcome w' => A.returned (some outcome) w')
      (fun _ w' => A.thrown w')
      (finish engine context stopReason response detail
        stepsExecuted resumeToken) w := by
  have hRest : ∀ (record : OutcomeRecord) (w' : World),
      A.holds
          (.finished (context.push (.outcome record)) record)
          w' →
        Safe M A.request
          (fun outcome w' => A.returned (some outcome) w')
          (fun _ w' => A.thrown w')
          (runSelfImprovement engine
              (context.push (.outcome record)) record >>=
            fun context =>
              Program.perform (Op.setProjection
                { sessionId := context.sessionId
                  records := context.records
                  latestOutcome := some record }) >>=
                fun _ => pure (.fromRecord record)) w' := by
    intro record w' hHolds
    apply Safe.bind
      (hRules.annotates.safe_runSelfImprovement hHost hHolds)
    intro context w'' hHolds
    rw [Safe.bind_iff, safe_perform]
    refine ⟨(hRules.project hHolds rfl).1, ?_⟩
    intro stored _
    rw [hHost.next]
    cases stored with
    | true => exact hRules.done (hRules.project hHolds rfl).2
    | false => exact hRules.done hHolds
  unfold finish
  rw [Safe.bind_iff]
  refine hHost.safe_append (hRules.outcome hHolds rfl rfl).1
    ?_ ?_
  · exact hRest _ _ (hRules.outcome hHolds rfl rfl).2
  · intro error hFails
    exact hRest _ _
      (hRules.lostOutcome hHolds rfl rfl hFails)

/- The rules with the end of an advance as one of them. -/
theorem steps : StepRules M engine A where
  quiet := hRules.quiet
  issue := hRules.issue
  lag := hRules.lag
  note := fun hHolds hRemark =>
    hRules.note hHolds hRemark.isNote
  noted := fun hHolds hRemark =>
    (hRules.noted hHolds hRemark.isNote).2
  deliberated := fun hHolds =>
    (hRules.noted hHolds (by trivial)).1
  fresh := hRules.fresh
  stale := fun hHolds hFails =>
    hRules.stale hHolds hFails.storeFails
  summarize := hRules.summarize
  propose := hRules.propose
  ask := hRules.ask
  planStep := hRules.planStep
  await := hRules.await
  resolve := hRules.resolve
  reject := hRules.reject
  batch := hRules.batch
  result := hRules.result
  recorded := hRules.recorded
  lostResult := hRules.lostResult
  finish := fun _ _ _ _ _ hHolds =>
    hRules.safe_finish hHost hHolds
  progress := hRules.progress
  failed := hRules.failed
  thrown := hRules.thrown

end Rules

namespace StepRules

variable {M : Machine Op Answer World}
variable {engine : AgentEngine}
variable {A : Assertions}
variable {context : AgentContext}
variable {outcome : OutcomeRecord}
variable {w : World}
variable (hHost : OnHost M)
variable (hRules : StepRules M engine A)

include hHost hRules

------------------------------------------------------------
-- Requests Of A Step
------------------------------------------------------------

theorem safe_newUuid
    {stage : Stage}
    {Q : String → World → Prop}
    {R : EngineError → World → Prop}
    (hHolds : A.holds stage w)
    (hNext : ∀ uuid w', A.holds stage w' → Q uuid w') :
    Safe M A.request Q R newUuid w := by
  apply hHost.safe_newUuid (hRules.quiet hHolds trivial)
  intro uuid hFresh
  exact hNext uuid _ (hRules.issue hHolds hFresh)

theorem safe_appendAndPush
    {record : SessionRecord}
    (stage : AgentContext → Stage)
    (hPush : ∀ context,
      (stage context).push record =
        stage (context.push record))
    (hRemark : IsRemark record)
    (hHolds : A.holds (stage context) w) :
    Keeps M A stage (appendAndPush context record) w := by
  unfold appendAndPush Keeps
  rw [Safe.bind_iff]
  apply hHost.safe_appendOrFail (hRules.note hHolds hRemark)
  · have hNoted := hRules.noted hHolds hRemark
    rw [hPush] at hNoted
    exact hNoted
  · intro error hFails
    exact hRules.thrown hHolds hFails

omit hHost in
theorem safe_finishAdvance
    {ready : Bool}
    {stopReason : StopReason}
    {response detail : Option String}
    {stepsExecuted : Nat}
    {resumeToken : Option ResumeToken}
    {emittedEvents : List KernelEventRecord}
    (hHolds : A.holds (.acting ready context) w) :
    Ends M A
      (finishAdvance engine context stopReason response detail
        stepsExecuted resumeToken emittedEvents) w := by
  unfold finishAdvance Ends
  refine Safe.bind (hRules.finish _ _ _ _ _ hHolds) ?_
  intro outcome w' hReturned
  exact hReturned

theorem safe_suspend
    {ready : Bool}
    {step : Nat}
    {reason : SuspendReason}
    {pendingCalls : List PlannedSkillCall}
    {resumeToken : ResumeToken}
    {emittedEvents : List KernelEventRecord}
    (hHolds : A.holds (.acting ready context) w) :
    Ends M A
      (suspend engine context step reason pendingCalls
        resumeToken emittedEvents) w := by
  unfold suspend appendAndPush Ends
  rw [Program.bind_assoc, Safe.bind_iff]
  apply hHost.safe_appendOrFail (hRules.await hHolds rfl).1
  · exact hRules.safe_finishAdvance
      (hRules.await hHolds rfl).2
  · intro error hFails
    exact hRules.thrown hHolds hFails

------------------------------------------------------------
-- The Actions
------------------------------------------------------------

/- The guard ends the advance or leaves it where it was. -/
theorem safe_policyOutcome
    {ready : Bool}
    {stepsExecuted failures : Nat}
    (hHolds : A.holds (.acting ready context) w) :
    Safe M A.request
      (fun r w' =>
        match r with
        | some outcome => A.returned (some outcome) w'
        | none => A.holds (.acting ready context) w')
      (fun _ w' => A.thrown w')
      (policyOutcome engine context stepsExecuted failures)
      w := by
  unfold policyOutcome
  refine Safe.bind
    (hHost.safe_policyStop (hRules.quiet hHolds)) ?_
  rintro stop w' ⟨_, hSame⟩
  subst hSame
  cases stop with
  | none => exact hHolds
  | some stop =>
      refine Safe.bind (hRules.finish _ _ _ _ _ hHolds) ?_
      intro outcome w' hReturned
      exact hReturned

theorem safe_persistKernelEvents
    {ready : Bool}
    {events : List KernelEventRecord}
    (hHolds : A.holds (.acting ready context) w) :
    Safe M A.request
      (fun context' w' =>
        A.holds (.acting ready context') w' ∧
          context'.metadata = context.metadata ∧
          context'.records = context.records ++
            events.map SessionRecord.kernelEvent)
      (fun _ w' => A.thrown w')
      (persistKernelEvents events context) w := by
  induction events generalizing context w with
  | nil => exact ⟨hHolds, rfl, by simp⟩
  | cons event rest ih =>
      unfold persistKernelEvents
        appendAndPush
      rw [Program.bind_assoc, Safe.bind_iff]
      apply hHost.safe_appendOrFail
        (hRules.note hHolds (by trivial))
      · have hNoted :
            A.holds
              (.acting ready
                (context.push (.kernelEvent event)))
              (w.append (.kernelEvent event)) :=
          hRules.noted hHolds (by trivial)
        refine Safe.mono (fun _ _ h => h) ?_
          (fun _ _ h => h) (ih hNoted)
        rintro context' w' ⟨hHolds', hMetadata, hRecords⟩
        refine ⟨hHolds', hMetadata, ?_⟩
        rw [hRecords]
        simp [AgentContext.push]
      · intro error hFails
        exact hRules.thrown hHolds hFails

theorem safe_recordResults
    {ready : Bool}
    {results : List ToolResultRecord}
    (hResults : A.results ready context results w) :
    Safe M A.request
      (fun r w' =>
        match r with
        | .ok context' => A.holds (.acting ready context') w'
        | .error error => A.thrown w' ∧ ∀ stepsExecuted,
            A.returned
              (some (storageFailureOutcome
                context.metadata.triggerId stepsExecuted
                error)) w')
      (fun _ w' => A.thrown w')
      (recordResults results context) w := by
  induction results generalizing context w with
  | nil => exact hRules.recorded hResults
  | cons result rest ih =>
      unfold recordResults
      rw [Safe.bind_iff]
      have hResult := hRules.result hResults
      refine hHost.safe_append hResult.1 (ih hResult.2) ?_
      intro error hFails
      have hLost : ∀ stepsExecuted,
          A.thrown w ∧ A.returned
            (some (storageFailureOutcome
              context.metadata.triggerId stepsExecuted
              error)) w :=
        fun stepsExecuted => hRules.lostResult hResults hFails
      exact ⟨(hLost 0).1, fun n => (hLost n).2⟩

theorem safe_recordResultsOrFail
    {ready : Bool}
    {results : List ToolResultRecord}
    (hResults : A.results ready context results w) :
    Keeps M A (.acting ready)
      (recordResultsOrFail results context) w := by
  unfold recordResultsOrFail Keeps
  refine Safe.bind (hRules.safe_recordResults hHost hResults) ?_
  intro r w' hRecorded
  cases r with
  | ok context' => exact hRecorded
  | error error => exact hRecorded.1

theorem safe_recordMemoryAction
    {ready : Bool}
    {event : KernelEvent}
    {source : String}
    {content : Json}
    {emittedEvents : List KernelEventRecord}
    (hHolds : A.holds (.acting ready context) w) :
    Ends M A
      (recordMemoryAction event source content context
        emittedEvents) w := by
  unfold recordMemoryAction Ends
  rw [Safe.bind_iff]
  apply hRules.safe_newUuid hHost hHolds
  intro uuid w' hHolds
  refine Safe.bind (hRules.safe_appendAndPush hHost
    (.acting ready) (fun _ => rfl) trivial hHolds) ?_
  intro context' w' hHolds
  rw [Safe.bind_iff]
  apply hRules.safe_newUuid hHost hHolds
  intro eventId w' hHolds
  rw [Safe.bind_iff]
  apply hRules.safe_newUuid hHost hHolds
  intro observationId w' hHolds
  refine Safe.bind (hRules.safe_appendAndPush hHost
    (.acting ready) (fun _ => rfl) trivial hHolds) ?_
  intro context' w' hHolds
  exact hRules.progress hHolds

theorem safe_executeCalls
    {ready : Bool}
    {calls : List PlannedSkillCall}
    {stepsExecuted : Nat}
    {emittedEvents : List KernelEventRecord}
    (hHolds : A.holds (.acting ready context) w)
    (hSource :
      BatchSource context w stepsExecuted calls false) :
    Ends M A
      (executeCalls engine context calls stepsExecuted
        emittedEvents) w := by
  unfold executeCalls Ends
  refine Safe.bind (hRules.batch hHolds hSource) ?_
  intro execution w' hExecution
  cases execution with
  | executed batch =>
      refine Safe.bind
        (hRules.safe_recordResults hHost hExecution) ?_
      intro r w' hRecorded
      cases r with
      | ok context' => exact hRules.progress hRecorded
      | error error => exact hRecorded.2 _
  | suspended reason pendingCalls resumeToken =>
      exact hRules.safe_suspend hHost hExecution

theorem safe_delegateTask
    {ready : Bool}
    {record : DelegationRecord}
    {stepsExecuted : Nat}
    {emittedEvents : List KernelEventRecord}
    (hHolds : A.holds (.acting ready context) w) :
    Ends M A
      (delegateTask engine context record stepsExecuted
        emittedEvents) w := by
  unfold delegateTask Ends
  refine Safe.bind (hRules.safe_appendAndPush hHost
    (.acting ready) (fun _ => rfl) trivial hHolds) ?_
  intro context' w' hHolds
  refine Safe.bind (hRules.safe_appendAndPush hHost
    (.acting ready) (fun _ => rfl) trivial hHolds) ?_
  intro context' w' hHolds
  exact hRules.safe_finishAdvance hHolds

/- Every action keeps the rules. -/
theorem safe_executeAction
    {ready : Bool}
    {action : AgentAction}
    {stepsExecuted : Nat}
    {emittedEvents : List KernelEventRecord}
    (hHolds : A.holds (.acting ready context) w)
    (hSource : ∀ calls, action = .callSkills calls →
      BatchSource context w stepsExecuted calls false) :
    Ends M A
      (executeAction engine context action stepsExecuted
        emittedEvents) w := by
  unfold executeAction Ends
  cases action with
  | plan summary candidateActions confidence =>
      dsimp only
      rw [Safe.bind_iff]
      apply hRules.safe_newUuid hHost hHolds
      intro uuid w' hHolds
      rw [Safe.bind_iff]
      apply hHost.safe_appendOrFail
        (hRules.note hHolds (by trivial))
      · exact hRules.progress (hRules.deliberated hHolds)
      · intro error hFails
        exact hRules.thrown hHolds hFails
  | respond content => exact hRules.safe_finishAdvance hHolds
  | yieldWith reason => exact hRules.safe_finishAdvance hHolds
  | memorySearch query limit =>
      dsimp only
      rw [Safe.bind_iff]
      apply hHost.safe_quiet (.listRecords 0 100) trivial
        nofun (hRules.quiet hHolds trivial)
      intro page _
      exact hRules.safe_recordMemoryAction hHost hHolds
  | memoryArchive content =>
      exact hRules.safe_recordMemoryAction hHost hHolds
  | continueWith reason => exact hRules.progress hHolds
  | suspend reason pendingCalls resumeToken =>
      exact hRules.safe_suspend hHost hHolds
  | callSkills calls =>
      exact hRules.safe_executeCalls hHost hHolds
        (hSource calls rfl)
  | delegate target task correlationId resumeToken =>
      exact hRules.safe_delegateTask hHost hHolds

------------------------------------------------------------
-- The Single Step
------------------------------------------------------------

theorem safe_persistProviderMetadata
    {ready : Bool}
    {decision : ProviderDecision}
    (hHolds : A.holds (.acting ready context) w) :
    Safe M A.request
      (fun context' w' =>
        A.holds (.acting ready context') w' ∧
          context'.metadata = context.metadata)
      (fun _ w' => A.thrown w')
      (persistProviderMetadata decision context) w := by
  have hPush : ∀ (context : AgentContext) (w : World)
      (record : SessionRecord), IsRemark record →
      A.holds (.acting ready context) w →
        Safe M A.request
          (fun context' w' =>
            A.holds (.acting ready context') w' ∧
              context'.metadata = context.metadata)
          (fun _ w' => A.thrown w')
          (appendAndPush context record) w := by
    intro context w record hRemark hHolds
    unfold appendAndPush
    rw [Safe.bind_iff]
    apply hHost.safe_appendOrFail (hRules.note hHolds hRemark)
    · exact ⟨hRules.noted hHolds hRemark, rfl⟩
    · intro error hFails
      exact hRules.thrown hHolds hFails
  unfold persistProviderMetadata
  cases decision.usage with
  | none =>
      cases decision.cache with
      | none => exact ⟨hHolds, rfl⟩
      | some cache => exact hPush context w _ trivial hHolds
  | some usage =>
      apply Safe.bind
        (hPush context w (.providerUsage usage) trivial hHolds)
      intro context' w' hPushed
      rcases hPushed with ⟨hHolds', hMetadata⟩
      rw [← hMetadata]
      cases decision.cache with
      | none => exact ⟨hHolds', rfl⟩
      | some cache =>
          exact hPush context' w' _ trivial hHolds'

theorem safe_followDecision
    {ready : Bool}
    {decision : ProviderDecision}
    {stepsExecuted : Nat}
    {emittedEvents : List KernelEventRecord}
    (hHolds : A.holds (.acting ready context) w) :
    Ends M A
      (followDecision engine context decision stepsExecuted
        emittedEvents) w := by
  unfold followDecision Ends
  refine Safe.bind
    (hRules.safe_persistProviderMetadata hHost hHolds) ?_
  rintro context' w' ⟨hHolds', _⟩
  dsimp only
  rw [Safe.bind_iff]
  apply hHost.safe_append (hRules.note hHolds' (by trivial))
  · apply hRules.safe_executeAction hHost
      (hRules.noted hHolds' (by trivial))
    intro calls hCalls
    rw [hCalls]
    exact .decided (.inl (List.mem_append_right _
      (List.mem_singleton_self _)))
  · intro error hFails
    exact hRules.failed hHolds' hFails

theorem safe_askProvider
    {trigger : AgentTrigger}
    {stepsExecuted : Nat}
    {emittedEvents : List KernelEventRecord}
    (hHolds : A.holds (.acting true context) w) :
    Ends M A
      (askProvider engine context trigger stepsExecuted
        emittedEvents) w := by
  unfold askProvider Ends
  rw [Safe.bind_iff]
  refine ⟨hRules.ask hHolds, ?_⟩
  intro answer _
  rw [hHost.next]
  cases answer with
  | none => exact hRules.safe_finishAdvance hHolds
  | some answer =>
      cases answer with
      | ok decision =>
          exact hRules.safe_followDecision hHost hHolds
      | error error =>
          exact hRules.safe_finishAdvance hHolds

theorem safe_performSingleStep
    {trigger : AgentTrigger}
    {stepsExecuted failures : Nat}
    {emittedEvents : List KernelEventRecord}
    (hHolds : A.holds (.acting true context) w) :
    Ends M A
      (performSingleStep engine context trigger stepsExecuted
        failures emittedEvents) w := by
  unfold performSingleStep Ends
  split
  · rename_i plan action hDue
    have hStep := hRules.planStep hHolds hDue
    have hSource : ∀ (w' : World) calls,
        action = .callSkills calls →
          BatchSource context w' stepsExecuted calls false := by
      intro w' calls hCalls
      rw [hCalls] at hDue
      exact .due stepsExecuted hDue
    rw [Safe.bind_iff]
    apply hHost.safe_append hStep.1
    · exact hRules.safe_executeAction hHost hStep.2
        (hSource _)
    · intro error hFails
      exact hRules.safe_executeAction hHost
        (hRules.lag hHolds) (hSource _)
  · refine Safe.bind (hRules.safe_policyOutcome hHost hHolds) ?_
    intro stop w' hStop
    cases stop with
    | some outcome => exact hStop
    | none => exact hRules.safe_askProvider hHost hStop

end StepRules

end RainEngine
