import RainEngine.Advances.Footprint
import RainEngine.Advances.Notes
import RainEngine.Sessions.Runs

/-
  This file compares the kernel events an advance appends to
  the ledger with those it reports to its host. The events of
  the trigger and of the actions are appended and reported,
  the events of a planner are only appended.

  Key definitions include:
    * `eventsIn`
    * `plannedIn`
    * `ReportsAdded`
    * `reconstructed`

  Key theorems include:
    * `accounts_advance`
    * `reports_iff_unplanned`
-/

namespace RainEngine

open Effects

------------------------------------------------------------
-- Events Of A Trace
------------------------------------------------------------

/- The kernel event a request appends. -/
def Op.event : Op → Option KernelEventRecord
| .append (.kernelEvent event) => some event
| _ => none

/- The kernel events appended in a trace. -/
def eventsIn (trace : HostTrace) : List KernelEventRecord :=
  trace.filterMap fun x => x.1.event

/- The kernel events a planner has answered with. -/
def plannedBy : Exchange Answer → List KernelEvent
| ⟨.plan _ _, output⟩ => output.events
| _ => []

def plannedIn (trace : HostTrace) : List KernelEvent :=
  trace.flatMap plannedBy

/- The store has answered every request. -/
def Answered (trace : HostTrace) : Prop :=
  ∀ x ∈ trace, StoreAnswered x.1 x.2

/- A request that concerns no kernel event. -/
structure Op.Eventless (op : Op) : Prop where
  event : op.event = none
  notPlan : ∀ a : Answer op, plannedBy ⟨op, a⟩ = []

section Traces

variable {trace rest : HostTrace}

theorem eventsIn_append :
    eventsIn (trace ++ rest) =
      eventsIn trace ++ eventsIn rest :=
  List.filterMap_append

theorem plannedIn_append :
    plannedIn (trace ++ rest) =
      plannedIn trace ++ plannedIn rest :=
  List.flatMap_append

theorem eventsIn_eventless
    (hTrace : ∀ x ∈ trace, x.1.Eventless) :
    eventsIn trace = [] :=
  List.filterMap_eq_nil_iff.mpr
    fun x hx => (hTrace x hx).event

theorem plannedIn_eventless
    (hTrace : ∀ x ∈ trace, x.1.Eventless) :
    plannedIn trace = [] :=
  List.flatMap_eq_nil_iff.mpr
    fun x hx => (hTrace x hx).notPlan x.2

theorem eventsIn_cons
    {op : Op}
    {a : Answer op}
    (hOp : op.Eventless) :
    eventsIn (⟨op, a⟩ :: rest) = eventsIn rest :=
  List.filterMap_cons_none hOp.event

theorem plannedIn_cons
    {op : Op}
    {a : Answer op}
    (hOp : op.Eventless) :
    plannedIn (⟨op, a⟩ :: rest) = plannedIn rest := by
  rw [plannedIn, List.flatMap_cons, hOp.notPlan]
  rfl

theorem Answered.left
    (hAnswered : Answered (trace ++ rest)) :
    Answered trace :=
  fun x hx => hAnswered x (List.mem_append_left _ hx)

theorem Answered.right
    (hAnswered : Answered (trace ++ rest)) :
    Answered rest :=
  fun x hx => hAnswered x (List.mem_append_right _ hx)

end Traces

------------------------------------------------------------
-- Reported Events
------------------------------------------------------------

/-
  What is reported beside the events is derived from them, and
  no wake is among them.
-/
structure Derived (result : AdvanceResult) : Prop where
  delta :
    result.stateDelta = deriveStateDelta result.emittedEvents
  wake : result.wakeRequest = none
  noWake : ∀ event ∈ result.emittedEvents,
    extractWakeRequest event = none

/-
  What a part of an advance returns that goes on from events
  already reported: it reports what it appends in addition.
-/
structure Tells
    (emittedEvents : List KernelEventRecord)
    (trace : HostTrace)
    (result : AdvanceResult) : Prop where
  events :
    result.emittedEvents = emittedEvents ++ eventsIn trace
  planned : plannedIn trace = []
  derived : Answered trace → Derived result

/- Programs that go on from events already reported. -/
def Reporting
    (emittedEvents : List KernelEventRecord)
    (p : EngineM AdvanceResult) :
    Prop :=
  Yields (fun _ => True) (Tells emittedEvents) p

/- A part of an advance without kernel events. -/
abbrev Quietly
    {α : Type}
    (p : EngineM α) :
    Prop :=
  Uses Op.Eventless (fun _ => True) p

/- Events that request no wake. -/
def Wakeless (events : List KernelEventRecord) : Prop :=
  ∀ event ∈ events, extractWakeRequest event = none

theorem Wakeless.extract
    {events : List KernelEventRecord}
    (hWakeless : Wakeless events) :
    events.findSome? extractWakeRequest = none :=
  List.findSome?_eq_none_iff.mpr hWakeless

theorem Wakeless.append
    {events rest : List KernelEventRecord}
    (hWakeless : Wakeless events)
    (hRest : Wakeless rest) :
    Wakeless (events ++ rest) := by
  intro event hMem
  rcases List.mem_append.mp hMem with hEvent | hEvent
  · exact hWakeless event hEvent
  · exact hRest event hEvent

theorem wakeless_deriveTriggerKernelEvents
    (triggerId : String)
    (trigger : AgentTrigger) :
    Wakeless
      (deriveTriggerKernelEvents triggerId trigger) := by
  intro event hMem
  cases trigger with
  | approval _ _ _ => cases hMem
  | _ =>
      rw [deriveTriggerKernelEvents,
        List.mem_singleton] at hMem
      subst hMem
      rfl

section Parts

variable {engine : AgentEngine}
variable {context : AgentContext}
variable {emittedEvents : List KernelEventRecord}

/- A result without an outcome is derived from its events. -/
theorem derived_progress
    (hWakeless : Wakeless emittedEvents) :
    Derived (progressResult emittedEvents) :=
  ⟨rfl, hWakeless.extract, hWakeless⟩

theorem derived_build
    {outcome : EngineOutcome}
    (hWakeless : Wakeless emittedEvents) :
    Derived (buildAdvanceResult outcome emittedEvents) :=
  ⟨rfl, hWakeless.extract, hWakeless⟩

/- A quiet part may come before the rest. -/
theorem Quietly.reporting
    {α : Type}
    {p : EngineM α}
    {V : α → Prop}
    {f : α → EngineM AdvanceResult}
    (hQuietly : Uses Op.Eventless V p)
    (hNext : ∀ a, V a → Reporting emittedEvents (f a)) :
    Reporting emittedEvents (p >>= f) := by
  apply Yields.bind hQuietly.yields (fun _ _ => trivial)
  rintro trace a ⟨hTrace, hValue⟩
  refine Yields.mono (fun _ _ => trivial) ?_
    (hNext a hValue)
  intro rest result hTells
  refine ⟨?_, ?_, ?_⟩
  · rw [hTells.events, eventsIn_append,
      eventsIn_eventless hTrace, List.nil_append]
  · rw [plannedIn_append, plannedIn_eventless hTrace,
      hTells.planned]
    rfl
  · exact fun hAnswered => hTells.derived hAnswered.right

theorem reporting_pure
    {result : AdvanceResult}
    (hEvents : result.emittedEvents = emittedEvents)
    (hDerived : Derived result) :
    Reporting emittedEvents (pure result) :=
  ⟨trivial, by rw [hEvents]; exact (List.append_nil _).symm,
    rfl, fun _ => hDerived⟩

/- A failed append leaves nothing to derive. -/
theorem reporting_append
    {record : SessionRecord}
    {f : Except MemoryError Unit → EngineM AdvanceResult}
    (hRecord : (Op.append record).Eventless)
    (hStored : Reporting emittedEvents (f (.ok ())))
    (hLost : ∀ error, ∃ result, f (.error error) = pure result ∧
      result.emittedEvents = emittedEvents) :
    Reporting emittedEvents (append record >>= f) := by
  apply Yields.perform trivial
  intro a
  cases a with
  | ok _ =>
      refine Yields.mono (fun _ _ => trivial) ?_ hStored
      intro rest result hTells
      refine ⟨?_, ?_, ?_⟩
      · rw [hTells.events, eventsIn_cons hRecord]
      · rw [plannedIn_cons hRecord, hTells.planned]
      · intro hAnswered
        exact hTells.derived
          fun x hx => hAnswered x (List.mem_cons_of_mem _ hx)
  | error error =>
      rcases hLost error with ⟨result, hResult, hEvents⟩
      rw [hResult]
      refine ⟨trivial, ?_, ?_, ?_⟩
      · rw [hEvents, eventsIn_cons hRecord]
        exact (List.append_nil _).symm
      · rw [plannedIn_cons hRecord]
        rfl
      · intro hAnswered
        have hStored := hAnswered _ (List.mem_cons_self)
        cases hStored

/- An event that is appended has to be reported. -/
theorem reporting_event
    {event : KernelEventRecord}
    {f : AgentContext → EngineM AdvanceResult}
    (hNext : ∀ context',
      Reporting (emittedEvents ++ [event]) (f context')) :
    Reporting emittedEvents
      (appendAndPush context (.kernelEvent event) >>= f) := by
  apply Yields.perform trivial
  intro a
  cases a with
  | ok _ =>
      refine Yields.mono (fun _ _ => trivial) ?_ (hNext _)
      intro rest result hTells
      refine ⟨?_, ?_, ?_⟩
      · rw [hTells.events, List.append_assoc]
        rfl
      · exact hTells.planned
      · intro hAnswered
        exact hTells.derived
          fun x hx => hAnswered x (List.mem_cons_of_mem _ hx)
  | error error => trivial

theorem reporting_events
    {events : List KernelEventRecord}
    {f : AgentContext → EngineM AdvanceResult}
    (hNext : ∀ context',
      Reporting (emittedEvents ++ events) (f context')) :
    Reporting emittedEvents
      (persistKernelEvents events context >>= f) := by
  induction events generalizing context emittedEvents with
  | nil =>
      have hHere := hNext context
      rw [List.append_nil] at hHere
      exact hHere
  | cons event rest ih =>
      unfold persistKernelEvents
      rw [Program.bind_assoc]
      apply reporting_event
      intro context'
      apply ih
      intro context''
      rw [List.append_assoc]
      exact hNext context''

------------------------------------------------------------
-- Parts Without Events
------------------------------------------------------------

theorem eventless_append
    {record : SessionRecord}
    (hOther : record.asKernelEvent = none) :
    (Op.append record).Eventless := by
  cases record with
  | kernelEvent _ => cases hOther
  | _ => exact ⟨rfl, fun _ => rfl⟩

theorem quietly_newUuid : Quietly newUuid :=
  uses_newUuid ⟨rfl, fun _ => rfl⟩

theorem quietly_append
    {record : SessionRecord}
    (hOther : record.asKernelEvent = none) :
    Quietly (append record) :=
  uses_append (eventless_append hOther)

theorem quietly_appendOrFail
    {record : SessionRecord}
    (hOther : record.asKernelEvent = none) :
    Quietly (appendOrFail record) :=
  uses_appendOrFail (eventless_append hOther) trivial

theorem quietly_appendAndPush
    {record : SessionRecord}
    (hOther : record.asKernelEvent = none) :
    Quietly (appendAndPush context record) :=
  Uses.bind (quietly_appendOrFail hOther) fun _ _ => trivial

theorem quietly_finish
    {stopReason : StopReason}
    {response detail : Option String}
    {stepsExecuted : Nat}
    {resumeToken : Option ResumeToken} :
    Quietly
      (finish engine context stopReason response detail
        stepsExecuted resumeToken) := by
  refine uses_finish (fun _ _ => eventless_append rfl)
    ⟨rfl, fun _ => rfl⟩ ?_
    fun _ => ⟨rfl, fun _ => rfl⟩
  intro record hAppraisal
  apply eventless_append
  cases record <;> first | rfl | exact hAppraisal.elim

theorem quietly_batch
    {step : Nat}
    {calls : List PlannedSkillCall}
    {approvalOverride : Bool} :
    Quietly
      (executePlannedCalls engine context step calls
        approvalOverride) := by
  refine Uses.mono ?_ (fun _ h => h) uses_batch
  intro op hBatch
  cases op with
  | append record =>
      apply eventless_append
      cases record <;> first | rfl | exact hBatch.elim
  | plan _ _ => exact hBatch.elim
  | _ => exact ⟨rfl, fun _ => rfl⟩

/- Results are lost only when the store has failed. -/
theorem yields_recordResults
    {results : List ToolResultRecord} :
    Yields (fun _ => True)
      (fun trace r => (∀ x ∈ trace, x.1.Eventless) ∧
        ∀ error, r = .error error → ¬Answered trace)
      (recordResults results context) := by
  induction results generalizing context with
  | nil => exact ⟨trivial, by simp, by simp⟩
  | cons result rest ih =>
      apply Yields.perform trivial
      intro a
      have hHead :
          (Op.append (.toolResult result)).Eventless :=
        eventless_append rfl
      cases a with
      | ok _ =>
          refine Yields.mono (fun _ _ => trivial) ?_ ih
          rintro trace r ⟨hTrace, hLost⟩
          refine ⟨List.forall_mem_cons.mpr ⟨hHead, hTrace⟩, ?_⟩
          intro error hError hAnswered
          exact hLost error hError
            fun x hx => hAnswered x (List.mem_cons_of_mem _ hx)
      | error error =>
          refine ⟨trivial, ?_, ?_⟩
          · exact List.forall_mem_cons.mpr ⟨hHead, by simp⟩
          · intro error' _ hAnswered
            have hStored := hAnswered _ List.mem_cons_self
            cases hStored

theorem quietly_recordResultsOrFail
    {results : List ToolResultRecord} :
    Quietly (recordResultsOrFail results context) :=
  Uses.mono (fun _ h => h) (fun _ _ => trivial)
    (uses_recordResultsOrFail fun _ => eventless_append rfl)

------------------------------------------------------------
-- Actions And Steps
------------------------------------------------------------

theorem reporting_finishAdvance
    {stopReason : StopReason}
    {response detail : Option String}
    {stepsExecuted : Nat}
    {resumeToken : Option ResumeToken}
    (hWakeless : Wakeless emittedEvents) :
    Reporting emittedEvents
      (finishAdvance engine context stopReason response
        detail stepsExecuted resumeToken emittedEvents) := by
  apply Quietly.reporting quietly_finish
  intro outcome _
  exact reporting_pure rfl (derived_build hWakeless)

theorem reporting_suspend
    {step : Nat}
    {reason : SuspendReason}
    {pendingCalls : List PlannedSkillCall}
    {resumeToken : ResumeToken}
    (hWakeless : Wakeless emittedEvents) :
    Reporting emittedEvents
      (suspend engine context step reason pendingCalls
        resumeToken emittedEvents) := by
  apply Quietly.reporting (quietly_appendAndPush rfl)
  intro context' _
  exact reporting_finishAdvance hWakeless

theorem reporting_recordMemoryAction
    {event : KernelEvent}
    {source : String}
    {content : Json}
    (hWakeless : Wakeless emittedEvents)
    (hEvent : ∀ eventId,
      extractWakeRequest
        { eventId := eventId, event := event } = none) :
    Reporting emittedEvents
      (recordMemoryAction event source content context
        emittedEvents) := by
  apply Quietly.reporting quietly_newUuid
  intro eventId _
  apply reporting_event
  intro context'
  apply Quietly.reporting quietly_newUuid
  intro observationEventId _
  apply Quietly.reporting quietly_newUuid
  intro observationId _
  apply reporting_event
  intro context''
  apply reporting_pure
  · rw [List.append_assoc]
    rfl
  · apply derived_progress
    apply hWakeless.append
    intro record hMem
    rw [List.mem_pair] at hMem
    rcases hMem with hSame | hSame
    · rw [hSame]
      exact hEvent eventId
    · rw [hSame]
      rfl

theorem reporting_executeCalls
    {calls : List PlannedSkillCall}
    {stepsExecuted : Nat}
    (hWakeless : Wakeless emittedEvents) :
    Reporting emittedEvents
      (executeCalls engine context calls stepsExecuted
        emittedEvents) := by
  apply Quietly.reporting quietly_batch
  intro execution _
  cases execution with
  | suspended reason pendingCalls resumeToken =>
      exact reporting_suspend hWakeless
  | executed batch =>
      apply Yields.bind yields_recordResults
        (fun _ _ => trivial)
      rintro trace r ⟨hTrace, hLost⟩
      have hEvents : eventsIn (trace ++ []) = [] := by
        rw [List.append_nil, eventsIn_eventless hTrace]
      have hPlanned : plannedIn (trace ++ []) = [] := by
        rw [List.append_nil, plannedIn_eventless hTrace]
      cases r with
      | error error =>
          refine ⟨trivial, ?_, hPlanned, ?_⟩
          · rw [hEvents]
            exact (List.append_nil _).symm
          · intro hAnswered
            exact (hLost error rfl hAnswered.left).elim
      | ok _ =>
          refine ⟨trivial, ?_, hPlanned, ?_⟩
          · rw [hEvents]
            exact (List.append_nil _).symm
          · exact fun _ => derived_progress hWakeless

theorem reporting_delegateTask
    {record : DelegationRecord}
    {stepsExecuted : Nat}
    (hWakeless : Wakeless emittedEvents) :
    Reporting emittedEvents
      (delegateTask engine context record stepsExecuted
        emittedEvents) := by
  apply Quietly.reporting (quietly_appendAndPush rfl)
  intro context' _
  apply reporting_event
  intro context''
  apply reporting_finishAdvance
  apply hWakeless.append
  intro event hMem
  rw [List.mem_singleton] at hMem
  subst hMem
  rfl

/- Every action reports the events it appends. -/
theorem reporting_executeAction
    {action : AgentAction}
    {stepsExecuted : Nat}
    (hWakeless : Wakeless emittedEvents) :
    Reporting emittedEvents
      (executeAction engine context action stepsExecuted
        emittedEvents) := by
  cases action with
  | plan summary candidateActions confidence =>
      apply Quietly.reporting quietly_newUuid
      intro deliberationId _
      apply Quietly.reporting (quietly_appendOrFail rfl)
      intro _ _
      exact reporting_pure rfl (derived_progress hWakeless)
  | respond content => exact reporting_finishAdvance hWakeless
  | yieldWith reason =>
      exact reporting_finishAdvance hWakeless
  | memorySearch query limit =>
      apply Quietly.reporting (V := fun _ => True)
        (p := Program.perform (Op.listRecords 0 100))
      · exact ⟨⟨rfl, fun _ => rfl⟩,
          fun _ => trivial⟩
      · intro page _
        exact reporting_recordMemoryAction hWakeless
          fun _ => rfl
  | memoryArchive content =>
      exact reporting_recordMemoryAction hWakeless
        fun _ => rfl
  | continueWith _ =>
      exact reporting_pure rfl (derived_progress hWakeless)
  | suspend reason pendingCalls resumeToken =>
      exact reporting_suspend hWakeless
  | callSkills calls => exact reporting_executeCalls hWakeless
  | delegate target task correlationId resumeToken =>
      exact reporting_delegateTask hWakeless

theorem reporting_followDecision
    {decision : ProviderDecision}
    {stepsExecuted : Nat}
    (hWakeless : Wakeless emittedEvents) :
    Reporting emittedEvents
      (followDecision engine context decision stepsExecuted
        emittedEvents) := by
  apply Quietly.reporting
    (uses_persistProviderMetadata
      (fun _ => eventless_append rfl)
      (fun _ => eventless_append rfl))
  intro context' _
  apply reporting_append (eventless_append rfl)
  · exact reporting_executeAction hWakeless
  · intro error
    exact ⟨_, rfl, rfl⟩

theorem reporting_askProvider
    {trigger : AgentTrigger}
    {stepsExecuted : Nat}
    (hWakeless : Wakeless emittedEvents) :
    Reporting emittedEvents
      (askProvider engine context trigger stepsExecuted
        emittedEvents) := by
  apply Quietly.reporting (V := fun _ => True)
    (p := Program.perform _)
  · exact ⟨⟨rfl, fun _ => rfl⟩, fun _ => trivial⟩
  · intro answer _
    cases answer with
    | none => exact reporting_finishAdvance hWakeless
    | some answer =>
        cases answer with
        | error error =>
            exact reporting_finishAdvance hWakeless
        | ok decision =>
            exact reporting_followDecision hWakeless

theorem reporting_performSingleStep
    {trigger : AgentTrigger}
    {stepsExecuted failures : Nat}
    (hWakeless : Wakeless emittedEvents) :
    Reporting emittedEvents
      (performSingleStep engine context trigger
        stepsExecuted failures emittedEvents) := by
  unfold performSingleStep
  split
  · apply Quietly.reporting (quietly_append rfl)
    intro _ _
    exact reporting_executeAction hWakeless
  · have hGuard : Quietly
        (policyOutcome engine context stepsExecuted
          failures) := by
      refine Uses.bind
        (uses_policyStop (fun _ => ⟨rfl, fun _ => rfl⟩)
          (fun _ => ⟨rfl, fun _ => rfl⟩)) ?_
      intro stop _
      cases stop with
      | none => trivial
      | some stop =>
          rcases stop with ⟨stopReason, detail⟩
          exact Uses.bind quietly_finish fun _ _ => trivial
    apply Quietly.reporting hGuard
    intro stopped _
    cases stopped with
    | none => exact reporting_askProvider hWakeless
    | some outcome =>
        exact reporting_pure rfl (derived_build hWakeless)

/- What an approval resumes is reported like a step. -/
theorem reporting_approvalStep
    {trigger : AgentTrigger}
    {token : ResumeToken}
    {decision : ApprovalDecision}
    {metadata : Json}
    {stepsExecuted failures : Nat}
    (hWakeless : Wakeless emittedEvents) :
    Reporting emittedEvents
      (approvalStep engine context trigger token decision
        metadata stepsExecuted failures emittedEvents) := by
  have hFind :
      Quietly (findApprovalTarget context token decision) := by
    refine ⟨⟨rfl, fun _ => rfl⟩, ?_⟩
    intro answer
    cases answer with
    | error error => trivial
    | ok found => cases found <;> trivial
  apply Quietly.reporting hFind
  intro found _
  cases found with
  | none => exact reporting_finishAdvance hWakeless
  | some target =>
      have hResolution :
          Quietly (recordResolution target metadata) := by
        unfold recordResolution
        split
        · trivial
        · exact quietly_appendOrFail rfl
      have hResume :
          Quietly (resumeCalls engine context target) := by
        unfold resumeCalls
        cases target.decision with
        | approved => exact quietly_batch
        | rejected => trivial
      apply Quietly.reporting hResolution
      intro _ _
      apply Quietly.reporting hResume
      intro execution _
      cases execution with
      | suspended _ _ _ =>
          exact reporting_finishAdvance hWakeless
      | executed batch =>
          apply Quietly.reporting quietly_recordResultsOrFail
          intro context' _
          exact reporting_performSingleStep hWakeless

/- The events of the trigger are reported with its step. -/
theorem reporting_triggerStep
    {request : ProcessRequest}
    {triggerId : String}
    {snapshot : SessionSnapshot} :
    Reporting []
      (triggerStep engine request triggerId snapshot) := by
  unfold triggerStep
  apply reporting_events
  intro context'
  rw [List.nil_append]
  have hWakeless := wakeless_deriveTriggerKernelEvents
    triggerId request.trigger
  dsimp only
  split
  · exact reporting_approvalStep hWakeless
  · exact reporting_performSingleStep hWakeless

------------------------------------------------------------
-- Planned Events
------------------------------------------------------------

/-
  What a whole advance returns: it reports what it appends,
  less the events of the planner, which come first.
-/
structure Accounts
    (trace : HostTrace)
    (result : AdvanceResult) : Prop where
  events : ∃ planned,
    eventsIn trace = planned ++ result.emittedEvents ∧
      planned.map (·.event) = plannedIn trace
  derived : Answered trace → Derived result

def Accounting (p : EngineM AdvanceResult) : Prop :=
  Yields (fun _ => True) Accounts p

/- A part whose events are those of the planner. -/
abbrev Planning
    {α : Type}
    (p : EngineM α) :
    Prop :=
  Yields (fun _ => True)
    (fun trace _ =>
      (eventsIn trace).map (·.event) = plannedIn trace) p

theorem Quietly.planning
    {α : Type}
    {p : EngineM α}
    (hQuietly : Quietly p) :
    Planning p := by
  refine Yields.mono (fun _ _ => trivial) ?_ hQuietly.yields
  rintro trace _ ⟨hTrace, _⟩
  rw [eventsIn_eventless hTrace, plannedIn_eventless hTrace]
  rfl

theorem Planning.bind
    {α β : Type}
    {p : EngineM α}
    {f : α → EngineM β}
    (hPlanning : Planning p)
    (hNext : ∀ a, Planning (f a)) :
    Planning (p >>= f) := by
  apply Yields.bind hPlanning (fun _ _ => trivial)
  intro trace a hTrace
  refine Yields.mono (fun _ _ => trivial) ?_ (hNext a)
  intro rest _ hRest
  rw [eventsIn_append, List.map_append, hTrace, hRest,
    plannedIn_append]

/- The events of the planner come before the rest. -/
theorem Planning.accounting
    {α : Type}
    {p : EngineM α}
    {f : α → EngineM AdvanceResult}
    (hPlanning : Planning p)
    (hNext : ∀ a, Accounting (f a)) :
    Accounting (p >>= f) := by
  apply Yields.bind hPlanning (fun _ _ => trivial)
  intro trace a hTrace
  refine Yields.mono (fun _ _ => trivial) ?_ (hNext a)
  intro rest result hAccounts
  rcases hAccounts.events with ⟨planned, hEvents, hPlanned⟩
  refine ⟨⟨eventsIn trace ++ planned, ?_, ?_⟩, ?_⟩
  · rw [eventsIn_append, hEvents, List.append_assoc]
  · rw [List.map_append, hTrace, hPlanned, plannedIn_append]
  · exact fun hAnswered =>
      hAccounts.derived hAnswered.right

theorem Reporting.accounting
    {p : EngineM AdvanceResult}
    (hReporting : Reporting [] p) :
    Accounting p := by
  refine Yields.mono (fun _ _ => trivial) ?_ hReporting
  intro trace result hTells
  refine ⟨⟨[], ?_, ?_⟩, hTells.derived⟩
  · exact hTells.events.symm
  · rw [hTells.planned]
    rfl

theorem Accounting.report
    {result : AdvanceResult}
    (hEvents : result.emittedEvents = [])
    (hDerived : Derived result) :
    Accounting (pure result) :=
  (reporting_pure hEvents hDerived).accounting

theorem derived_outcomeOnly
    {outcome : EngineOutcome} :
    Derived (outcomeOnly outcome []) :=
  ⟨rfl, rfl, by simp [outcomeOnly]⟩

theorem yields_appendPlannedEvents
    {events : List KernelEvent} :
    Yields (fun _ => True)
      (fun trace _ =>
        (eventsIn trace).map (·.event) = events ∧
          plannedIn trace = [])
      (appendPlannedEvents events) := by
  induction events with
  | nil => exact ⟨trivial, rfl, rfl⟩
  | cons event rest ih =>
      refine ⟨trivial, ?_⟩
      intro eventId
      refine ⟨trivial, ?_⟩
      intro stored
      refine Yields.mono (fun _ _ => trivial) ?_ ih
      rintro trace _ ⟨hEvents, hPlanned⟩
      refine ⟨?_, hPlanned⟩
      rw [← hEvents]
      rfl

theorem quietly_refreshSnapshot
    {snapshot : SessionSnapshot} :
    Quietly (refreshSnapshot snapshot) := by
  refine ⟨⟨rfl, fun _ => rfl⟩, ?_⟩
  intro answer
  cases answer <;> trivial

theorem quietly_summarizeIfLong
    {request : ProcessRequest}
    {snapshot : SessionSnapshot} :
    Quietly (summarizeIfLong engine request snapshot) := by
  have hSummary : Quietly
      (summarizeHistory engine snapshot request.policy
        request.trigger) := by
    unfold summarizeHistory Quietly
    rw [Uses.bind_iff, uses_perform]
    refine ⟨⟨rfl, fun _ => rfl⟩, ?_⟩
    intro answer
    split
    · exact Uses.bind quietly_newUuid fun _ _ => trivial
    · trivial
  unfold summarizeIfLong
  split
  · refine Uses.bind hSummary ?_
    intro summary _
    cases summary with
    | none => trivial
    | some summary =>
        exact Uses.bind (quietly_append rfl)
          fun _ _ => quietly_refreshSnapshot
  · trivial

theorem quietly_appendProposedPlan
    {plan : Option ExecutionPlan} :
    Quietly (appendProposedPlan plan) := by
  cases plan with
  | none => trivial
  | some plan =>
      refine Uses.bind quietly_newUuid ?_
      intro planId _
      exact Uses.bind (quietly_append rfl)
        fun _ _ => trivial

/- The planner's events are appended as it lists them. -/
theorem planning_runPlanner
    {request : ProcessRequest}
    {snapshot : SessionSnapshot} :
    Planning (runPlanner engine request snapshot) := by
  unfold runPlanner
  split
  · apply Yields.perform trivial
    intro output
    have hAppend := @yields_appendPlannedEvents output.events
    apply Yields.bind hAppend (fun _ _ => trivial)
    rintro trace _ ⟨hEvents, hPlanned⟩
    have hRest : Planning (do
        appendProposedPlan output.proposedPlan
        let changed :=
          !output.events.isEmpty || output.proposedPlan.isSome
        let snapshot ←
          if changed then refreshSnapshot snapshot
          else pure snapshot
        summarizeIfLong engine request snapshot) := by
      apply Planning.bind quietly_appendProposedPlan.planning
      intro _
      dsimp only
      split
      · apply Planning.bind quietly_refreshSnapshot.planning
        intro refreshed
        exact quietly_summarizeIfLong.planning
      · exact quietly_summarizeIfLong.planning
    refine Yields.mono (fun _ _ => trivial) ?_ hRest
    intro rest _ hLater
    change (eventsIn (trace ++ rest)).map (·.event) =
      output.events ++ plannedIn (trace ++ rest)
    rw [eventsIn_append, List.map_append, hEvents, hLater,
      plannedIn_append, hPlanned]
    rfl
  · exact ⟨trivial, rfl⟩

------------------------------------------------------------
-- Whole Advances
------------------------------------------------------------

theorem accounting_advanceTrigger
    {request : ProcessRequest} :
    Accounting (advanceTrigger engine request) := by
  apply quietly_newUuid.planning.accounting
  intro triggerId
  have hPrior :
      Quietly (findPriorOutcome request.idempotencyKey) := by
    unfold findPriorOutcome
    split
    · trivial
    · refine ⟨⟨rfl, fun _ => rfl⟩, ?_⟩
      intro answer
      cases answer <;> trivial
  apply hPrior.planning.accounting
  intro prior
  cases prior with
  | some prior => exact .report rfl derived_outcomeOnly
  | none =>
      apply (quietly_append rfl).planning.accounting
      intro stored
      cases stored with
      | error error => exact .report rfl derived_outcomeOnly
      | ok _ =>
          have hLoad : ∀ record : TriggerRecord,
              Quietly (loadTriggerSnapshot record) := by
            intro record
            refine ⟨⟨rfl, fun _ => rfl⟩, ?_⟩
            intro cached
            cases cached with
            | none =>
                exact ⟨⟨rfl, fun _ => rfl⟩, fun _ => trivial⟩
            | some cached => trivial
          apply (hLoad _).planning.accounting
          intro loaded
          cases loaded with
          | error error =>
              exact .report rfl derived_outcomeOnly
          | ok snapshot =>
              apply (quietly_append rfl).planning.accounting
              intro _
              apply quietly_refreshSnapshot.planning.accounting
              intro refreshed
              apply planning_runPlanner.accounting
              intro planned
              exact reporting_triggerStep.accounting

theorem accounting_advanceContinue
    {request : ContinueRequest} :
    Accounting (advanceContinue engine request) := by
  have hLoad : Quietly (Program.perform Op.loadSession) :=
    ⟨⟨rfl, fun _ => rfl⟩, fun _ => trivial⟩
  apply hLoad.planning.accounting
  intro answer
  cases answer with
  | error error => exact .report rfl derived_outcomeOnly
  | ok snapshot =>
      have hWakeless : Wakeless [] := by simp [Wakeless]
      dsimp only
      split
      · apply quietly_newUuid.planning.accounting
        intro triggerId
        exact .report rfl derived_outcomeOnly
      · apply Reporting.accounting
        unfold continueTrigger
        dsimp only
        split
        · apply Quietly.reporting quietly_batch
          intro execution _
          cases execution with
          | suspended _ _ _ =>
              exact reporting_finishAdvance hWakeless
          | executed batch =>
              apply Quietly.reporting
                quietly_recordResultsOrFail
              intro context' _
              exact reporting_performSingleStep hWakeless
        · exact reporting_performSingleStep hWakeless

/- An advance reports what it appends but did not plan. -/
theorem accounts_advance
    (request : AdvanceRequest) :
    Accounting (advance engine request) := by
  cases request with
  | trigger request => exact accounting_advanceTrigger
  | continueWith request => exact accounting_advanceContinue

end Parts

------------------------------------------------------------
-- Reports To The Host
------------------------------------------------------------

/-
  A result reports the records of its advance: its events are
  theirs in order, the delta is that of these events, and the
  wake it requests is the one that is requested in them.
-/
structure ReportsAdded
    (added : List SessionRecord)
    (result : AdvanceResult) : Prop where
  events :
    result.emittedEvents =
      added.filterMap SessionRecord.asKernelEvent
  delta :
    result.stateDelta =
      deriveStateDelta
        (added.filterMap SessionRecord.asKernelEvent)
  wake : ∀ wake,
    result.wakeRequest = some wake ↔
      ∃ event ∈ added.filterMap SessionRecord.asKernelEvent,
        extractWakeRequest event = some wake

/- The events the planner has proposed in an advance. -/
def Advance.planned (t : Advance) : List KernelEvent :=
  plannedIn (t.steps.map Step.exchange)

/- The events a run has reported, result by result. -/
def reportedEvents (run : List Advance) :
    List KernelEventRecord :=
  run.flatMap fun t =>
    match t.result with
    | some (.ok result) => result.emittedEvents
    | _ => []

/- What a host makes of the results of a run. -/
def reconstructed
    (sessionId : String)
    (run : List Advance) :
    AgentStateSnapshot :=
  ((reportedEvents run).foldl
    (fun state event => state.applyEvent event.event)
    (AgentStateSnapshot.empty sessionId)).withProfile

section Reported

variable {t : Advance}
variable {result : AdvanceResult}

/- A reliable store answers every request. -/
theorem Advance.answered
    (hRuns : t.Runs reliable) :
    Answered (t.steps.map Step.exchange) := by
  intro x hx
  rcases List.mem_map.mp hx with ⟨s, hMem, hSame⟩
  have hAllowed := Exec.allowed hRuns s hMem
  rw [← hSame]
  exact hAllowed.2

/- An answered append is stored. -/
theorem events_storedIn
    {steps : List (Step Op Answer World)}
    (hAnswered : Answered (steps.map Step.exchange)) :
    (storedIn steps).filterMap SessionRecord.asKernelEvent =
      eventsIn (steps.map Step.exchange) := by
  unfold storedIn eventsIn
  rw [List.filterMap_filterMap, List.filterMap_map]
  apply List.filterMap_congr
  intro s hMem
  have hStored := hAnswered s.exchange
    (List.mem_map_of_mem hMem)
  rcases s with ⟨w, op, a⟩
  cases op with
  | append record =>
      cases a with
      | ok _ => cases record <;> rfl
      | error error => cases hStored
  | _ => rfl

theorem Advance.events_added
    (hRuns : t.Runs reliable) :
    t.added.filterMap SessionRecord.asKernelEvent =
      eventsIn (t.steps.map Step.exchange) := by
  rw [Advance.added_eq .reliable hRuns,
    events_storedIn (t.answered hRuns)]

/- An advance reports its records unless events are planned. -/
theorem Advance.reports_iff
    (hRuns : t.Runs reliable)
    (hResult : t.result = some (.ok result)) :
    ReportsAdded t.added result ↔ t.planned = [] := by
  have hAccounts : Accounts _ result :=
    ((accounts_advance t.request).exec hRuns).2 result hResult
  rcases hAccounts.events with ⟨planned, hEvents, hPlanned⟩
  have hDerived := hAccounts.derived (t.answered hRuns)
  unfold Advance.planned
  rw [← hPlanned]
  constructor
  · intro hReports
    have hSame := hReports.events
    rw [t.events_added hRuns, hEvents] at hSame
    have hNil : planned = [] :=
      List.self_eq_append_left.mp hSame
    rw [hNil]
    rfl
  · intro hNone
    rw [List.map_eq_nil_iff] at hNone
    rw [hNone, List.nil_append] at hEvents
    refine ⟨?_, ?_, ?_⟩
    · rw [t.events_added hRuns, hEvents]
    · rw [t.events_added hRuns, hEvents, hDerived.delta]
    · intro wake
      rw [t.events_added hRuns, hEvents, hDerived.wake]
      constructor
      · intro hNever
        cases hNever
      · rintro ⟨event, hMem, hWake⟩
        rw [hDerived.noWake event hMem] at hWake
        cases hWake

/- The events of a run are those its results report. -/
theorem Run.reported
    {run : List Advance}
    {w w' : World}
    (hRun : Run reliable w run w')
    (hDone : ∀ t ∈ run, ∃ result, t.result = some (.ok result))
    (hUnplanned : ∀ t ∈ run, t.planned = []) :
    w'.ledger.filterMap SessionRecord.asKernelEvent =
      w.ledger.filterMap SessionRecord.asKernelEvent ++
        reportedEvents run := by
  induction hRun with
  | nil => exact (List.append_nil _).symm
  | @cons t rest w' hRuns hRest ih =>
      have hLater := ih
        (fun s hs => hDone s (List.mem_cons_of_mem _ hs))
        (fun s hs => hUnplanned s (List.mem_cons_of_mem _ hs))
      rcases hDone t List.mem_cons_self with ⟨result, hResult⟩
      have hReports : ReportsAdded t.added result :=
        (t.reports_iff hRuns hResult).mpr
          (hUnplanned t List.mem_cons_self)
      rw [hLater, Advance.ledger_eq .reliable hRuns,
        List.filterMap_append, ← hReports.events,
        List.append_assoc]
      congr 1
      unfold reportedEvents
      rw [List.flatMap_cons, hResult]

end Reported

/-
  A completed advance on a working store reports the records
  it has appended if and only if its planner proposes no
  event. Where no planner ever does, a host that applies the
  results of a whole session has the state of its ledger.
-/
theorem reports_iff_unplanned
    (sessionId : String) :
    (∀ (t : Advance) (result : AdvanceResult),
      t.Runs reliable → t.result = some (.ok result) →
        (ReportsAdded t.added result ↔ t.planned = [])) ∧
    (∀ (run : List Advance) (w : World),
      Run reliable (World.empty sessionId) run w →
      (∀ t ∈ run, ∃ result, t.result = some (.ok result)) →
      (∀ t ∈ run, t.planned = []) →
        reconstructed sessionId run =
          agentState sessionId w.ledger) := by
  constructor
  · intro t result hRuns hResult
    exact t.reports_iff hRuns hResult
  · intro run w hRun hDone hUnplanned
    have hEvents := hRun.reported hDone hUnplanned
    rw [World.empty, List.filterMap_nil,
      List.nil_append] at hEvents
    unfold reconstructed agentState
    rw [hEvents]

namespace Sample

def plannedWake : WakeRequestRecord where
  wakeId := "wake"
  requestedAt := 0
  dueAt := 1
  reason := "check later"
  taskId := none

/- A planner that schedules a wake. -/
def schedulesWake : Script :=
  { responds with
    planned := { events := [.wakeScheduled plannedWake] } }

def plannedAdvances : List Advance :=
  Script.advances planning
    [(schedulesWake, .trigger message)] (World.empty "session")

def plannedSession : World :=
  Script.session planning
    [(schedulesWake, .trigger message)] (World.empty "session")

/- A planner without a proposal. -/
def unplannedAdvances : List Advance :=
  Script.advances planning
    [(responds, .trigger message)] (World.empty "session")

end Sample

set_option maxRecDepth 100000 in
/-
  The wake a planner schedules is pending in the ledger, and
  the result of the advance does not tell of it.
-/
theorem planned_wake_unreported :
    ¬(∀ (t : Advance) (result : AdvanceResult),
      t.Runs reliable → t.result = some (.ok result) →
        ReportsAdded t.added result) ∧
    ¬(∀ (run : List Advance) (w : World),
      Run reliable (World.empty "session") run w →
      (∀ t ∈ run, ∃ result, t.result = some (.ok result)) →
        reconstructed "session" run =
          agentState "session" w.ledger) := by
  have hRun : Run reliable (World.empty "session")
      Sample.plannedAdvances Sample.plannedSession :=
    Script.session_run _ _ _
  constructor
  · intro hAll
    have hReports := hAll _ _
      (hRun.runs _ List.mem_cons_self) rfl
    have hNone : none = some Sample.plannedWake :=
      (hReports.wake Sample.plannedWake).mpr
        ⟨_, List.mem_cons_self, rfl⟩
    cases hNone
  · intro hAll
    have hSame := hAll _ _ hRun ?_
    · have hWake : none = some Sample.plannedWake :=
        congrArg AgentStateSnapshot.pendingWake hSame
      cases hWake
    · intro t hMem
      rw [Sample.plannedAdvances, Script.advances,
        Script.advances, List.mem_singleton] at hMem
      rw [hMem]
      exact ⟨_, rfl⟩

set_option maxRecDepth 100000 in
/- Without a proposal the host has the state of the ledger. -/
theorem unplanned_session_reported :
    reconstructed "session" Sample.unplannedAdvances =
      agentState "session"
        (Script.session Sample.planning
          [(Sample.responds, .trigger Sample.message)]
          (World.empty "session")).ledger := by
  apply (reports_iff_unplanned _).2 _ _
    (Script.session_run _ _ _)
  · intro t hMem
    rw [Script.advances, Script.advances,
      List.mem_singleton] at hMem
    rw [hMem]
    exact ⟨_, rfl⟩
  · intro t hMem
    rw [Script.advances, Script.advances,
      List.mem_singleton] at hMem
    rw [hMem]
    rfl

end RainEngine
