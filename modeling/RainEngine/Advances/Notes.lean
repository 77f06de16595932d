import RainEngine.Advances.Assertions

/-
  This file bounds what the parts of an advance do that only
  read, take notes or plan ahead, and proves that the notes of
  the self-improvement reach the ledger and the context alike:
  what one note preserves, all of them do.

  Key definitions include:
    * `Op.Incidental`
    * `IsAppraisal`
    * `GuardVerdict`
    * `Annotates`

  Key theorems include:
    * `incidental_runPlanner`
    * `uses_runSelfImprovement`
    * `uses_finish`
    * `Annotates.safe_runSelfImprovement`
-/

namespace RainEngine

open Effects

------------------------------------------------------------
-- Incidental Requests
------------------------------------------------------------

/- Reading, taking notes, and planning ahead. -/
def Op.Incidental : Op → Prop
| .append (.executionPlan version) =>
    version.currentStepIndex = 0
| .append record => IsNote record
| .generateAction timeoutMs _ => timeoutMs = none
| .loadSession => True
| .plan _ _ => True
| .newUuid => True
| _ => False

/- A part of an advance that does no more than that. -/
abbrev Incidental
    {α : Type}
    (p : EngineM α) :
    Prop :=
  Uses Op.Incidental (fun _ => True) p

/- The notes of the self-improvement. -/
def IsAppraisal : SessionRecord → Prop
| .reflection _ => True
| .policyTuning _ => True
| .strategyPreference _ => True
| .toolPerformance _ => True
| .profilePatch _ => True
| _ => False

theorem IsAppraisal.isNote
    {record : SessionRecord}
    (hAppraisal : IsAppraisal record) :
    IsNote record := by
  cases record <;> trivial

section Footprints

variable {engine : AgentEngine}
variable {context : AgentContext}
variable {outcome : OutcomeRecord}
variable {rendering : Rendering}

theorem IsNote.incidental
    {record : SessionRecord}
    (hNote : IsNote record) :
    (Op.append record).Incidental := by
  cases record <;> first | exact hNote | exact hNote.elim

/- A record that is appended is pushed. -/
theorem uses_appendAndPush
    {S : Op → Prop}
    {record : SessionRecord}
    (hRecord : S (.append record)) :
    Uses S (fun context' => context' = context.push record)
      (appendAndPush context record) :=
  Uses.bind (V := fun _ => True)
    (uses_appendOrFail hRecord trivial) fun _ _ => rfl

theorem uses_persistKernelEvents
    {S : Op → Prop}
    {events : List KernelEventRecord}
    (hEvent : ∀ event, S (.append (.kernelEvent event))) :
    Uses S
      (fun context' =>
        context'.records = context.records ++
            events.map SessionRecord.kernelEvent ∧
          context'.metadata = context.metadata)
      (persistKernelEvents events context) := by
  induction events generalizing context with
  | nil => exact ⟨(List.append_nil _).symm, rfl⟩
  | cons event rest ih =>
      refine Uses.bind (uses_appendAndPush (hEvent event)) ?_
      intro context' hPushed
      refine Uses.mono (fun _ h => h) ?_ ih
      rintro context'' ⟨hRecords, hMetadata⟩
      rw [hRecords, hMetadata, hPushed]
      simp [AgentContext.push]

/- The provider's report is all that is recorded of it. -/
theorem uses_persistProviderMetadata
    {S : Op → Prop}
    {decision : ProviderDecision}
    (hUsage : ∀ usage, S (.append (.providerUsage usage)))
    (hCache : ∀ cache, S (.append (.providerCache cache))) :
    Uses S (fun _ => True)
      (persistProviderMetadata decision context) := by
  have hAppend : ∀ {context record}, S (.append record) →
      Uses S (fun _ => True) (appendAndPush context record) :=
    fun hRecord => Uses.mono (fun _ h => h)
      (fun _ _ => trivial) (uses_appendAndPush hRecord)
  unfold persistProviderMetadata
  cases decision.usage with
  | none =>
      cases decision.cache with
      | none => trivial
      | some cache => exact hAppend (hCache cache)
  | some usage =>
      apply Uses.bind (hAppend (hUsage usage))
      intro context' _
      cases decision.cache with
      | none => trivial
      | some cache => exact hAppend (hCache cache)

theorem incidental_persistProviderMetadata
    {decision : ProviderDecision} :
    Incidental
      (persistProviderMetadata decision context) :=
  uses_persistProviderMetadata
    (fun _ => IsNote.incidental trivial)
    (fun _ => IsNote.incidental trivial)

theorem uses_refreshSnapshot
    {S : Op → Prop}
    {snapshot : SessionSnapshot}
    (hLoad : S .loadSession) :
    Uses S (fun _ => True) (refreshSnapshot snapshot) := by
  refine ⟨hLoad, ?_⟩
  intro a
  cases a <;> trivial

theorem uses_appendPlannedEvents
    {S : Op → Prop}
    {events : List KernelEvent}
    (hUuid : S .newUuid)
    (hEvent : ∀ event, S (.append (.kernelEvent event))) :
    Uses S (fun _ => True) (appendPlannedEvents events) := by
  induction events with
  | nil => trivial
  | cons event rest ih =>
      exact ⟨hUuid, fun _ => ⟨hEvent _, fun _ => ih⟩⟩

theorem uses_appendProposedPlan
    {S : Op → Prop}
    {plan : Option ExecutionPlan}
    (hUuid : S .newUuid)
    (hPlan : ∀ plan : ExecutionPlanRecord,
      plan.currentStepIndex = 0 →
        S (.append (.executionPlan plan))) :
    Uses S (fun _ => True) (appendProposedPlan plan) := by
  cases plan with
  | none => trivial
  | some plan =>
      exact ⟨hUuid, fun _ => ⟨hPlan _ rfl, fun _ => trivial⟩⟩

theorem uses_summarizeHistory
    {S : Op → Prop}
    {snapshot : SessionSnapshot}
    {policy : EnginePolicy}
    {trigger : AgentTrigger}
    (hAsk : ∀ request, S (.generateAction none request))
    (hUuid : S .newUuid) :
    Uses S (fun _ => True)
      (summarizeHistory engine snapshot policy trigger) := by
  unfold summarizeHistory
  rw [Uses.bind_iff, uses_perform]
  refine ⟨hAsk _, ?_⟩
  intro answer
  split
  · exact ⟨hUuid, fun _ => trivial⟩
  · trivial

theorem incidental_refreshSnapshot
    {snapshot : SessionSnapshot} :
    Incidental (refreshSnapshot snapshot) :=
  uses_refreshSnapshot trivial

theorem incidental_appendPlannedEvents
    {events : List KernelEvent} :
    Incidental (appendPlannedEvents events) :=
  uses_appendPlannedEvents trivial fun _ => trivial

theorem incidental_appendProposedPlan
    {plan : Option ExecutionPlan} :
    Incidental (appendProposedPlan plan) :=
  uses_appendProposedPlan trivial fun _ hIndex => hIndex

theorem incidental_summarizeHistory
    {snapshot : SessionSnapshot}
    {policy : EnginePolicy}
    {trigger : AgentTrigger} :
    Incidental
      (summarizeHistory engine snapshot policy trigger) :=
  uses_summarizeHistory (fun _ => rfl) trivial

theorem incidental_summarizeIfLong
    {request : ProcessRequest}
    {snapshot : SessionSnapshot} :
    Incidental
      (summarizeIfLong engine request snapshot) := by
  unfold summarizeIfLong
  split
  · refine Uses.bind incidental_summarizeHistory ?_
    intro summary _
    cases summary with
    | none => trivial
    | some summary =>
        exact ⟨trivial, fun _ => incidental_refreshSnapshot⟩
  · trivial

theorem incidental_runPlanner
    {request : ProcessRequest}
    {snapshot : SessionSnapshot} :
    Incidental (runPlanner engine request snapshot) := by
  unfold runPlanner Incidental
  split
  · rw [Uses.bind_iff, uses_perform]
    refine ⟨trivial, ?_⟩
    intro output
    refine Uses.bind incidental_appendPlannedEvents ?_
    intro _ _
    refine Uses.bind incidental_appendProposedPlan ?_
    intro _ _
    dsimp only
    split
    · exact Uses.bind incidental_refreshSnapshot
        fun _ _ => incidental_summarizeIfLong
    · exact incidental_summarizeIfLong
  · trivial

theorem uses_recordPreference
    {S : Op → Prop}
    {performance : ToolPerformance}
    (hUuid : S .newUuid)
    (hPreference : ∀ record,
      S (.append (.strategyPreference record))) :
    Uses S (fun _ => True)
      (recordPreference rendering performance context) :=
  Uses.bind (uses_newUuid hUuid) fun _ _ =>
    Uses.mono (fun _ h => h) (fun _ _ => trivial)
      (uses_appendAndPush (hPreference _))

theorem uses_recordPerformance
    {S : Op → Prop}
    {groups : List ToolPerformance}
    (hUuid : S .newUuid)
    (hPerformance : ∀ record,
      S (.append (.toolPerformance record)))
    (hPreference : ∀ record,
      S (.append (.strategyPreference record))) :
    Uses S (fun _ => True)
      (recordPerformance rendering groups context) := by
  induction groups generalizing context with
  | nil => trivial
  | cons performance rest ih =>
      refine Uses.bind (uses_newUuid hUuid) ?_
      intro uuid _
      refine Uses.bind
        (uses_appendAndPush (hPerformance _)) ?_
      intro context' _
      dsimp only
      split
      · exact Uses.bind
          (uses_recordPreference hUuid hPreference)
          fun _ _ => ih
      · exact ih

theorem uses_recordReflection
    {S : Op → Prop}
    {snapshot : AgentContextSnapshot}
    (hUuid : S .newUuid)
    (hReflection : ∀ record,
      S (.append (.reflection record))) :
    Uses S (fun _ => True)
      (recordReflection rendering snapshot outcome
        context) :=
  Uses.bind (uses_newUuid hUuid) fun _ _ =>
    Uses.mono (fun _ h => h) (fun _ _ => trivial)
      (uses_appendAndPush (hReflection _))

/- The self-improvement appends its own records only. -/
theorem uses_tunePolicy
    {S : Op → Prop}
    {snapshot : AgentContextSnapshot}
    (hUuid : S .newUuid)
    (hAppraisal : ∀ record, IsAppraisal record →
      S (.append record)) :
    Uses S (fun _ => True)
      (tunePolicy snapshot outcome context) := by
  have hAppend : ∀ {context record}, IsAppraisal record →
      Uses S (fun _ => True) (appendAndPush context record) :=
    fun hRecord => Uses.mono (fun _ h => h)
      (fun _ _ => trivial)
      (uses_appendAndPush (hAppraisal _ hRecord))
  refine Uses.bind (uses_newUuid hUuid) ?_
  intro tuningUuid _
  dsimp only
  split
  · exact hAppend trivial
  · refine Uses.bind (uses_newUuid hUuid) ?_
    intro overlayUuid _
    split
    · trivial
    · refine Uses.bind (hAppend trivial) ?_
      intro context' _
      exact Uses.bind (uses_newUuid hUuid)
        fun _ _ => hAppend trivial

theorem uses_runSelfImprovement
    {S : Op → Prop}
    (hUuid : S .newUuid)
    (hAppraisal : ∀ record, IsAppraisal record →
      S (.append record)) :
    Uses S (fun _ => True)
      (runSelfImprovement engine context outcome) := by
  unfold runSelfImprovement
  dsimp only
  split
  · trivial
  · refine Uses.bind (uses_recordReflection hUuid
      fun _ => hAppraisal _ trivial) ?_
    intro context' _
    refine Uses.bind (uses_recordPerformance hUuid
      (fun _ => hAppraisal _ trivial)
      (fun _ => hAppraisal _ trivial)) ?_
    intro context'' _
    split
    · trivial
    · exact uses_tunePolicy hUuid hAppraisal

theorem incidental_runSelfImprovement :
    Incidental
      (runSelfImprovement engine context outcome) :=
  uses_runSelfImprovement trivial
    fun _ hAppraisal => hAppraisal.isNote.incidental

/- The end of an advance with its outcome. -/
theorem uses_finish
    {S : Op → Prop}
    {stopReason : StopReason}
    {response detail : Option String}
    {stepsExecuted : Nat}
    {resumeToken : Option ResumeToken}
    (hOutcome : ∀ record : OutcomeRecord,
      record.stopReason = stopReason →
        S (.append (.outcome record)))
    (hUuid : S .newUuid)
    (hAppraisal : ∀ record, IsAppraisal record →
      S (.append record))
    (hProject : ∀ snapshot, S (.setProjection snapshot)) :
    Uses S (fun _ => True)
      (finish engine context stopReason response detail
        stepsExecuted resumeToken) := by
  refine Uses.bind (uses_append (hOutcome _ rfl)) ?_
  intro _ _
  refine Uses.bind
    (uses_runSelfImprovement hUuid hAppraisal) ?_
  intro context' _
  exact ⟨hProject _, fun _ => trivial⟩

/- Results are all that is appended, and all are pushed. -/
theorem uses_recordResults
    {S : Op → Prop}
    {results : List ToolResultRecord}
    (hResult : ∀ result, S (.append (.toolResult result))) :
    Uses S
      (fun r => ∀ context', r = .ok context' →
        context'.records = context.records ++
            results.map SessionRecord.toolResult ∧
          context'.metadata = context.metadata)
      (recordResults results context) := by
  induction results generalizing context with
  | nil =>
      intro context' hSame
      cases hSame
      exact ⟨(List.append_nil _).symm, rfl⟩
  | cons result rest ih =>
      refine ⟨hResult result, ?_⟩
      intro a
      cases a with
      | ok _ =>
          refine Uses.mono (fun _ h => h) ?_ ih
          intro r hPushed context' hSame
          rcases hPushed context' hSame with
            ⟨hRecords, hMetadata⟩
          refine ⟨?_, hMetadata⟩
          rw [hRecords, List.map_cons,
            AgentContext.pushToolResult, List.append_assoc]
          rfl
      | error _ =>
          intro context' hSame
          cases hSame

theorem uses_recordResultsOrFail
    {S : Op → Prop}
    {results : List ToolResultRecord}
    (hResult : ∀ result, S (.append (.toolResult result))) :
    Uses S
      (fun context' =>
        context'.records = context.records ++
            results.map SessionRecord.toolResult ∧
          context'.metadata = context.metadata)
      (recordResultsOrFail results context) := by
  refine Uses.bind (uses_recordResults hResult) ?_
  intro r hPushed
  cases r with
  | ok context' => exact hPushed context' rfl
  | error error => trivial

/-
  What the guard decides on once it knows of a cancellation
  and of the deadline.
-/
def guardDecision
    (context : AgentContext)
    (stepsExecuted failures : Nat)
    (cancelled late : Bool) :
    Option (StopReason × String) :=
  if cancelled then
    some (.cancelled, "execution cancelled")
  else if late then
    some (.deadlineExceeded,
      "engine execution deadline exceeded")
  else if context.metadata.policy.maxSteps ≤ stepsExecuted then
    some (.maxStepsReached, "max steps reached")
  else if context.metadata.policy.maxConsecutiveToolFailures ≤
      failures then
    some (.policyAborted,
      "max consecutive tool failure steps reached")
  else if costLimitReached context then
    some (.policyAborted, "session cost limit reached")
  else none

/-
  What the guard decides on: it goes on below the step limit,
  names the limit only at or above it, and never stops for a
  lost record.
-/
structure GuardVerdict
    (context : AgentContext)
    (stepsExecuted : Nat)
    (stop : Option (StopReason × String)) : Prop where
  goesOn : stop = none →
    stepsExecuted < context.metadata.policy.maxSteps
  stored : ∀ stopReason detail,
    stop = some (stopReason, detail) →
      stopReason ≠ .storageFailure
  limit : ∀ stopReason detail,
    stop = some (stopReason, detail) →
      stopReason = .maxStepsReached →
        context.metadata.policy.maxSteps ≤ stepsExecuted

section Decisions

variable {stepsExecuted failures : Nat}
variable {cancelled late : Bool}

theorem guardVerdict_guardDecision :
    GuardVerdict context stepsExecuted
      (guardDecision context stepsExecuted failures cancelled
        late) := by
  unfold guardDecision
  split_ifs
  all_goals
    constructor
    all_goals
      simp
    all_goals omega

/- The guard goes on below the limit of failures. -/
theorem guardDecision_none
    (hNone :
      guardDecision context stepsExecuted failures cancelled
        late = none) :
    failures <
      context.metadata.policy.maxConsecutiveToolFailures := by
  unfold guardDecision at hNone
  split_ifs at hNone
  omega

/- It names the limit of failures when that is reached. -/
theorem guardDecision_failed
    {stopReason : StopReason}
    (hStop :
      guardDecision context stepsExecuted failures cancelled
          late =
        some (stopReason,
          "max consecutive tool failure steps reached")) :
    context.metadata.policy.maxConsecutiveToolFailures ≤
      failures := by
  unfold guardDecision at hStop
  split_ifs at hStop <;> simp_all

end Decisions

/- The guard asks for the token, and then for the clock. -/
theorem policyStop_eq
    (context : AgentContext)
    (stepsExecuted failures : Nat) :
    policyStop context stepsExecuted failures =
      Program.perform
          (Op.isCancelled context.metadata.cancelled) >>=
        fun cancelled =>
          if cancelled then
            pure (guardDecision context stepsExecuted failures
              true false)
          else
            Program.perform (Op.deadlineReached
                context.metadata.policy.maxExecutionTime) >>=
              fun late =>
                pure (guardDecision context stepsExecuted
                  failures false late) := by
  unfold policyStop guardDecision
  dsimp only
  congr 1
  funext cancelled
  cases cancelled with
  | true => rfl
  | false =>
      rw [if_neg Bool.false_ne_true, if_neg Bool.false_ne_true]
      congr 1
      funext late
      rw [if_neg Bool.false_ne_true]
      split_ifs <;> rfl

theorem uses_policyStop
    {S : Op → Prop}
    {stepsExecuted failures : Nat}
    (hCancelled : ∀ cancelled, S (.isCancelled cancelled))
    (hDeadline : ∀ budget, S (.deadlineReached budget)) :
    Uses S (GuardVerdict context stepsExecuted)
      (policyStop context stepsExecuted failures) := by
  rw [policyStop_eq, Uses.bind_iff, uses_perform]
  refine ⟨hCancelled _, ?_⟩
  intro cancelled
  cases cancelled with
  | true => exact guardVerdict_guardDecision
  | false =>
      rw [if_neg Bool.false_ne_true, Uses.bind_iff,
        uses_perform]
      exact ⟨hDeadline _, fun _ => guardVerdict_guardDecision⟩

end Footprints

------------------------------------------------------------
-- The Policy Guard
------------------------------------------------------------

/-
  The guard decides by the numbers it has been given, with
  the token and the clock as they are then; a request that is
  cancelled stays so.
-/
theorem OnHost.safe_policyStop
    {M : Machine Op Answer World}
    {P : World → Op → Prop}
    {R : EngineError → World → Prop}
    {context : AgentContext}
    {stepsExecuted failures : Nat}
    {w : World}
    (hHost : OnHost M)
    (hQuiet : ∀ {op}, op.Quiet → P w op) :
    Safe M P
      (fun stop w' =>
        (∃ cancelled late,
          (context.metadata.cancelled = true →
            cancelled = true) ∧
          stop = guardDecision context stepsExecuted failures
            cancelled late) ∧
          w' = w)
      R (policyStop context stepsExecuted failures) w := by
  rw [policyStop_eq, Safe.bind_iff]
  apply hHost.safe_quiet (.isCancelled _) trivial nofun
    (hQuiet trivial)
  intro cancelled hAllowed
  have hToken : context.metadata.cancelled = true →
      cancelled = true :=
    hHost.allowed _ _ _ hAllowed
  cases cancelled with
  | true => exact ⟨⟨true, false, hToken, rfl⟩, rfl⟩
  | false =>
      rw [if_neg Bool.false_ne_true, Safe.bind_iff]
      apply hHost.safe_quiet (.deadlineReached _) trivial nofun
        (hQuiet trivial)
      intro late _
      exact ⟨⟨false, late, hToken, rfl⟩, rfl⟩

------------------------------------------------------------
-- Notes In Both Places
------------------------------------------------------------

/-
  What is known of a context and the world outlives a note
  that is appended and pushed.
-/
structure Annotates
    (M : Machine Op Answer World)
    (P : World → Op → Prop)
    (R : World → Prop)
    (J : AgentContext → World → Prop) : Prop where
  uuid : ∀ {context w},
    J context w → P w .newUuid
  issue : ∀ {context w uuid},
    J context w → uuid ∉ w.issued → J context (w.issue uuid)
  note : ∀ {context w record},
    J context w → IsNote record → P w (.append record)
  noted : ∀ {context w record},
    J context w → IsNote record →
      J (context.push record) (w.append record)
  thrown : ∀ {context w},
    J context w → StoreFails M w → R w

namespace Annotates

variable {M : Machine Op Answer World}
variable {P : World → Op → Prop}
variable {R : World → Prop}
variable {J : AgentContext → World → Prop}
variable {engine : AgentEngine}
variable {context : AgentContext}
variable {outcome : OutcomeRecord}
variable {rendering : Rendering}
variable {snapshot : AgentContextSnapshot}
variable {w : World}
variable (hHost : OnHost M)
variable (hNotes : Annotates M P R J)

/- A program that keeps what is known of its context. -/
abbrev Kept
    (M : Machine Op Answer World)
    (P : World → Op → Prop)
    (R : World → Prop)
    (J : AgentContext → World → Prop)
    (p : EngineM AgentContext)
    (w : World) :
    Prop :=
  Safe M P J (fun _ w' => R w') p w

include hHost hNotes

theorem safe_newUuid
    {Q : String → World → Prop}
    {R' : EngineError → World → Prop}
    (hKnown : J context w)
    (hNext : ∀ uuid w', J context w' → Q uuid w') :
    Safe M P Q R' newUuid w := by
  apply hHost.safe_newUuid (hNotes.uuid hKnown)
  intro uuid hFresh
  exact hNext uuid _ (hNotes.issue hKnown hFresh)

theorem safe_appendAndPush
    {record : SessionRecord}
    (hNote : IsNote record)
    (hKnown : J context w) :
    Kept M P R J (appendAndPush context record) w := by
  unfold appendAndPush Kept
  rw [Safe.bind_iff]
  apply hHost.safe_appendOrFail (hNotes.note hKnown hNote)
  · exact hNotes.noted hKnown hNote
  · intro error hFails
    exact hNotes.thrown hKnown hFails

theorem safe_recordPreference
    {performance : ToolPerformance}
    (hKnown : J context w) :
    Kept M P R J
      (recordPreference rendering performance context) w := by
  unfold recordPreference Kept
  rw [Safe.bind_iff]
  apply hNotes.safe_newUuid hHost hKnown
  intro uuid w' hKnown
  exact hNotes.safe_appendAndPush hHost trivial hKnown

theorem safe_recordPerformance
    {groups : List ToolPerformance}
    (hKnown : J context w) :
    Kept M P R J
      (recordPerformance rendering groups context) w := by
  induction groups generalizing context w with
  | nil => exact hKnown
  | cons performance rest ih =>
      unfold recordPerformance Kept
      rw [Safe.bind_iff]
      apply hNotes.safe_newUuid hHost hKnown
      intro uuid w' hKnown
      refine Safe.bind
        (hNotes.safe_appendAndPush hHost trivial hKnown) ?_
      intro context w' hKnown
      dsimp only
      split
      · apply Safe.bind
          (hNotes.safe_recordPreference hHost hKnown)
        intro context w' hKnown
        exact ih hKnown
      · exact ih hKnown

theorem safe_recordReflection
    (hKnown : J context w) :
    Kept M P R J
      (recordReflection rendering snapshot outcome
        context) w := by
  unfold recordReflection Kept
  rw [Safe.bind_iff]
  apply hNotes.safe_newUuid hHost hKnown
  intro uuid w' hKnown
  exact hNotes.safe_appendAndPush hHost trivial hKnown

theorem safe_recordTuning
    {tuning : PolicyTuningRecord}
    (hKnown : J context w) :
    Kept M P R J (recordTuning tuning context) w := by
  unfold recordTuning Kept
  refine Safe.bind
    (hNotes.safe_appendAndPush hHost trivial hKnown) ?_
  intro context w' hKnown
  rw [Safe.bind_iff]
  apply hNotes.safe_newUuid hHost hKnown
  intro uuid w' hKnown
  exact hNotes.safe_appendAndPush hHost trivial hKnown

theorem safe_tunePolicy
    (hKnown : J context w) :
    Kept M P R J (tunePolicy snapshot outcome context)
      w := by
  unfold tunePolicy Kept
  rw [Safe.bind_iff]
  apply hNotes.safe_newUuid hHost hKnown
  intro uuid w' hKnown
  dsimp only
  split
  · exact hNotes.safe_appendAndPush hHost trivial hKnown
  · rw [Safe.bind_iff]
    apply hNotes.safe_newUuid hHost hKnown
    intro overlayUuid w' hKnown
    split
    · exact hKnown
    · exact hNotes.safe_recordTuning hHost hKnown

theorem safe_runSelfImprovement
    (hKnown : J context w) :
    Kept M P R J
      (runSelfImprovement engine context outcome) w := by
  unfold runSelfImprovement
  dsimp only
  split
  · exact hKnown
  · apply Safe.bind
      (hNotes.safe_recordReflection hHost hKnown)
    intro context' w' hKnown
    apply Safe.bind
      (hNotes.safe_recordPerformance hHost hKnown)
    intro context'' w' hKnown
    split
    · exact hKnown
    · exact hNotes.safe_tunePolicy hHost hKnown

end Annotates

end RainEngine
