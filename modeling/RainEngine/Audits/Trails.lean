import RainEngine.Audits.Origins

/-
  This file shows that the ledger of a session accounts for all
  that its advances do: whatever the provider, the planner, the
  humans and the store do, an executor is only invoked with a
  call that stands in a decision or a plan recorded before, and
  so is every call that is stored or held back.

  Key definitions include:
    * `Audited`
    * `Viewed`

  Key theorems include:
    * `audited_performSingleStep`
    * `audited_approvalStep`
    * `audited_advance`
    * `run_traced`
-/

namespace RainEngine

open Effects

/- Every request is traced, and the trail is kept. -/
abbrev Audited
    {α : Type}
    (M : Machine Op Answer World)
    (p : EngineM α)
    (w : World) :
    Prop :=
  Safe M (fun w op => op.Traced w.ledger)
    (fun _ w' => Trailed w') (fun _ w' => Trailed w') p w

/- The same, for a part that returns a view of the ledger. -/
abbrev Viewed
    (M : Machine Op Answer World)
    (p : EngineM SessionSnapshot)
    (w : World) :
    Prop :=
  Safe M (fun w op => op.Traced w.ledger)
    (fun snapshot w' =>
      Trailed w' ∧ Sourced snapshot.records w')
    (fun _ w' => Trailed w') p w

section Walk

variable {M : Machine Op Answer World}
variable {engine : AgentEngine}
variable {context : AgentContext}
variable {trigger : AgentTrigger}
variable {stepsExecuted failures : Nat}
variable {emittedEvents : List KernelEventRecord}
variable {w : World}

theorem Trailed.append
    {record : SessionRecord}
    (hTrailed : Trailed w)
    (hTraced : (Op.append record).Traced w.ledger) :
    Trailed (w.append record) :=
  hTrailed.next (.append record) (.ok ()) hTraced

theorem Trailed.issue
    (hTrailed : Trailed w)
    (triggerId : String) :
    Trailed (w.issue triggerId) :=
  hTrailed.next .newUuid triggerId trivial

/- What is no source of calls may be pushed freely. -/
theorem Sourced.push_all
    {records more : List SessionRecord}
    (hSourced : Sourced records w)
    (hMore : ∀ record ∈ more, record.isSource = false) :
    Sourced (records ++ more) w := by
  intro record hMem hSource
  rcases List.mem_append.mp hMem with hOld | hNew
  · exact hSourced record hOld hSource
  · rw [hMore record hNew] at hSource
    cases hSource

theorem sourced_ledger : Sourced w.ledger w :=
  fun _ hMem _ => hMem

theorem Backed.sourced
    {records : List SessionRecord}
    (hBacked : Backed records w) :
    Sourced records w := by
  intro record hMem hSource
  rcases hBacked record hMem with hOutcome | hLedger
  · cases record <;> first
      | exact absurd hSource Bool.false_ne_true
      | exact absurd hOutcome Bool.false_ne_true
  · exact hLedger

------------------------------------------------------------
-- Actions
------------------------------------------------------------

section Actions

variable (hHost : OnHost M)

include hHost

theorem audited_callless
    {α : Type}
    {p : EngineM α}
    (hTrailed : Trailed w)
    (hCallless : Callless p) :
    Audited M p w :=
  Safe.mono (fun _ _ h => h) (fun _ _ h => h.2.1)
    (fun _ _ h => h)
    (hTrailed.safe_callless hHost hCallless)

/- A suspended advance only holds back what was asked for. -/
theorem audited_suspend
    {reason : SuspendReason}
    {pendingCalls : List PlannedSkillCall}
    {resumeToken : ResumeToken}
    (hTrailed : Trailed w)
    (hAsked : ∀ call ∈ pendingCalls,
      AskedFor w.ledger call) :
    Audited M
      (suspend engine context stepsExecuted reason
        pendingCalls resumeToken emittedEvents) w := by
  unfold suspend appendAndPush Audited
  rw [Program.bind_assoc, Safe.bind_iff]
  apply hHost.safe_appendOrFail
  · exact hAsked
  · refine audited_callless hHost (hTrailed.append ?_)
      callless_finishAdvance
    exact hAsked
  · intro _ _
    exact hTrailed

/- A batch takes its calls from the action and the records. -/
theorem safe_batch_traced
    {step : Nat}
    {calls : List PlannedSkillCall}
    {approvalOverride : Bool}
    (hTrailed : Trailed w)
    (hSourced : Sourced context.records w)
    (hAsked : ∀ call ∈ calls, AskedFor w.ledger call) :
    Safe M (fun w op => op.Traced w.ledger)
      (fun r w' => Trailed w' ∧ w.ledger <+: w'.ledger ∧
        match r with
        | .executed batch => ∃ known,
            (∀ call ∈ known, AskedFor w'.ledger call) ∧
              ∀ result ∈ batch.results,
                HasId known result.callId
        | .suspended _ pendingCalls _ => pendingCalls = calls)
      (fun _ w' => Trailed w')
      (executePlannedCalls engine context step calls
        approvalOverride) w := by
  by_cases hWaits : Waits engine calls approvalOverride
  · refine Safe.mono (fun _ _ h => h) ?_ (fun _ _ h => h)
      (hTrailed.safe_callless hHost
        (uses_waiting_batch hWaits))
    rintro r w' ⟨⟨reason, token, rfl⟩, hKept, hGrows⟩
    exact ⟨hKept, hGrows, rfl⟩
  · have hKnown : ∀ call ∈ graphCalls context.records ++ calls,
        AskedFor w.ledger call := by
      intro call hCall
      rcases List.mem_append.mp hCall with hGraph | hGiven
      · exact hTrailed.graphCalls hSourced call hGraph
      · exact hAsked call hGiven
    refine Safe.mono (fun _ _ h => h) ?_ (fun _ _ h => h)
      (hTrailed.safe hHost hKnown (uses_batch_isAbout hWaits))
    rintro r w' ⟨⟨batch, rfl, hResults⟩, hKept, hGrows⟩
    exact ⟨hKept, hGrows, _, fun call hCall =>
      (hKnown call hCall).mono hGrows.subset, hResults⟩

theorem audited_executeCalls
    {calls : List PlannedSkillCall}
    (hTrailed : Trailed w)
    (hSourced : Sourced context.records w)
    (hAsked : ∀ call ∈ calls, AskedFor w.ledger call) :
    Audited M
      (executeCalls engine context calls stepsExecuted
        emittedEvents) w := by
  unfold executeCalls Audited
  refine Safe.bind (safe_batch_traced hHost hTrailed hSourced
    hAsked) ?_
  rintro r w' ⟨hKept, hGrows, hCalls⟩
  cases r with
  | executed batch =>
      rcases hCalls with ⟨known, hKnown, hResults⟩
      refine Safe.bind (hKept.safe hHost hKnown
        (uses_recordResults_isAbout hResults)) ?_
      rintro r w'' ⟨_, hKept', _⟩
      cases r <;> exact hKept'
  | suspended reason pendingCalls resumeToken =>
      dsimp only at hCalls
      subst hCalls
      apply audited_suspend hHost hKept
      exact fun call hCall =>
        (hAsked call hCall).mono hGrows.subset

/- An action asks for nothing but its own calls. -/
theorem audited_executeAction
    {action : AgentAction}
    (hTrailed : Trailed w)
    (hSourced : Sourced context.records w)
    (hAsked : ∀ call ∈ action.calls, AskedFor w.ledger call) :
    Audited M
      (executeAction engine context action stepsExecuted
        emittedEvents) w := by
  have hMemory : ∀ {event source content},
      Callless (recordMemoryAction event source content
        context emittedEvents) := by
    intro event source content
    refine Uses.bind (uses_newUuid trivial) ?_
    intro eventId _
    refine Uses.bind (uses_appendAndPush trivial) ?_
    intro context' _
    refine Uses.bind (uses_newUuid trivial) ?_
    intro observationEventId _
    refine Uses.bind (uses_newUuid trivial) ?_
    intro observationId _
    exact Uses.bind (uses_appendAndPush trivial)
      fun _ _ => trivial
  cases action with
  | plan summary candidateActions confidence =>
      apply audited_callless hHost hTrailed
      refine Uses.bind (uses_newUuid trivial) ?_
      intro deliberationId _
      exact Uses.bind (V := fun _ => True)
        (uses_appendOrFail trivial trivial)
        fun _ _ => trivial
  | respond content =>
      exact audited_callless hHost hTrailed
        callless_finishAdvance
  | yieldWith reason =>
      exact audited_callless hHost hTrailed
        callless_finishAdvance
  | memorySearch query limit =>
      apply audited_callless hHost hTrailed
      exact ⟨trivial, fun _ => hMemory⟩
  | memoryArchive content =>
      exact audited_callless hHost hTrailed hMemory
  | continueWith reason => exact hTrailed
  | suspend reason pendingCalls resumeToken =>
      exact audited_suspend hHost hTrailed hAsked
  | callSkills calls =>
      exact audited_executeCalls hHost hTrailed hSourced
        hAsked
  | delegate target task correlationId resumeToken =>
      apply audited_callless hHost hTrailed
      refine Uses.bind (uses_appendAndPush trivial) ?_
      intro context' _
      refine Uses.bind (uses_appendAndPush trivial) ?_
      intro context'' _
      exact callless_finishAdvance

------------------------------------------------------------
-- The Single Step
------------------------------------------------------------

omit hHost in
theorem uses_persistedMetadata
    {decision : ProviderDecision} :
    Uses (Op.IsAbout [])
      (fun context' => ∃ more,
        context'.records = context.records ++ more ∧
          ∀ record ∈ more, record.isSource = false)
      (persistProviderMetadata decision context) := by
  have hPush : ∀ (context : AgentContext)
      (record : SessionRecord),
      (Op.append record).IsAbout [] →
      record.isSource = false →
        Uses (Op.IsAbout [])
          (fun context' => ∃ more,
            context'.records = context.records ++ more ∧
              ∀ record ∈ more, record.isSource = false)
          (appendAndPush context record) := by
    intro context record hAbout hOther
    refine Uses.mono (fun _ h => h) ?_
      (uses_appendAndPush hAbout)
    rintro context' rfl
    refine ⟨[record], rfl, ?_⟩
    intro other hMem
    rw [List.mem_singleton.mp hMem]
    exact hOther
  unfold persistProviderMetadata
  cases decision.usage with
  | none =>
      cases decision.cache with
      | none =>
          exact ⟨[], (List.append_nil _).symm,
            fun _ hMem => absurd hMem List.not_mem_nil⟩
      | some cache => exact hPush context _ trivial rfl
  | some usage =>
      refine Uses.bind (hPush context _ trivial rfl) ?_
      rintro context' ⟨more, hRecords, hMore⟩
      cases decision.cache with
      | none => exact ⟨more, hRecords, hMore⟩
      | some cache =>
          refine Uses.mono (fun _ h => h) ?_
            (hPush context' _ trivial rfl)
          rintro context'' ⟨rest, hRest, hOthers⟩
          refine ⟨more ++ rest, ?_, ?_⟩
          · rw [hRest, hRecords, List.append_assoc]
          · intro record hMem
            rcases List.mem_append.mp hMem with hOld | hNew
            · exact hMore record hOld
            · exact hOthers record hNew

/- The calls of a decision are recorded before they run. -/
theorem audited_followDecision
    {decision : ProviderDecision}
    (hTrailed : Trailed w)
    (hSourced : Sourced context.records w) :
    Audited M
      (followDecision engine context decision stepsExecuted
        emittedEvents) w := by
  unfold followDecision Audited
  refine Safe.bind
    (hTrailed.safe_callless hHost uses_persistedMetadata) ?_
  rintro context' w' ⟨⟨more, hRecords, hMore⟩, hKept, hGrows⟩
  have hPushed : Sourced context'.records w' := by
    rw [hRecords]
    exact (hSourced.mono hGrows).push_all hMore
  dsimp only
  rw [Safe.bind_iff]
  apply hHost.safe_append trivial
  · have hGrows' : w'.ledger <+:
        (w'.append (.modelDecision
          { step := stepsExecuted
            action := decision.action })).ledger :=
      List.prefix_append _ _
    apply audited_executeAction hHost
    · exact hKept.append trivial
    · refine (hPushed.mono hGrows').push_all ?_
      intro record hMem
      rw [List.mem_singleton.mp hMem]
      rfl
    · intro call hCall
      refine ⟨_, List.mem_append_right _
        (List.mem_singleton_self _), _,
        List.mem_singleton_self _, hCall⟩
  · intro _ _
    exact hKept

theorem audited_performSingleStep
    (hTrailed : Trailed w)
    (hSourced : Sourced context.records w) :
    Audited M
      (performSingleStep engine context trigger stepsExecuted
        failures emittedEvents) w := by
  unfold performSingleStep Audited
  split
  · rename_i plan action hDue
    rcases duePlanStep_recorded hDue with ⟨hPlan, hStep⟩
    have hAsked : ∀ call ∈ action.calls,
        AskedFor w.ledger call :=
      fun call hCall => ⟨_, hSourced _ hPlan rfl, action,
        List.mem_of_getElem? hStep, hCall⟩
    rw [Safe.bind_iff]
    apply hHost.safe_append trivial
    · have hGrows : w.ledger <+:
          (w.append (.executionPlan plan.next)).ledger :=
        List.prefix_append _ _
      exact audited_executeAction hHost
        (hTrailed.append trivial) (hSourced.mono hGrows)
        fun call hCall =>
          (hAsked call hCall).mono hGrows.subset
    · intro _ _
      exact audited_executeAction hHost hTrailed hSourced
        hAsked
  · refine Safe.bind
      (hTrailed.safe_callless hHost callless_policyOutcome) ?_
    rintro stop w' ⟨_, hKept, hGrows⟩
    cases stop with
    | some outcome => exact hKept
    | none =>
        have hHere := hSourced.mono hGrows
        dsimp only
        unfold askProvider
        rw [Safe.bind_iff]
        refine ⟨trivial, ?_⟩
        intro answer _
        rw [hHost.next]
        cases answer with
        | none =>
            exact audited_callless hHost hKept
              callless_finishAdvance
        | some answer =>
            cases answer with
            | ok decision =>
                exact audited_followDecision hHost hKept hHere
            | error error =>
                exact audited_callless hHost hKept
                  callless_finishAdvance

------------------------------------------------------------
-- Approvals And Unfinished Graphs
------------------------------------------------------------

/- The results of a batch are recorded, then a step is taken. -/
theorem audited_afterBatch
    {results : List ToolResultRecord}
    {known : List PlannedSkillCall}
    (hTrailed : Trailed w)
    (hSourced : Sourced context.records w)
    (hKnown : ∀ call ∈ known, AskedFor w.ledger call)
    (hResults : ∀ result ∈ results,
      HasId known result.callId) :
    Audited M
      (recordResultsOrFail results context >>= fun context =>
        performSingleStep engine context trigger
          stepsExecuted failures emittedEvents) w := by
  unfold recordResultsOrFail
  rw [Program.bind_assoc]
  refine Safe.bind (hTrailed.safe hHost hKnown
    (uses_recordResults_isAbout hResults)) ?_
  rintro r w' ⟨hPushed, hKept, hGrows⟩
  cases r with
  | error error => exact hKept
  | ok context' =>
      apply audited_performSingleStep hHost hKept
      rw [hPushed context' rfl]
      apply (hSourced.mono hGrows).push_all
      intro record hMem
      rcases List.mem_map.mp hMem with ⟨result, _, rfl⟩
      rfl

/- An approval is about an approval the ledger holds. -/
theorem safe_findApprovalTarget_recorded
    {token : ResumeToken}
    {decision : ApprovalDecision}
    (hTrailed : Trailed w)
    (hSourced : Sourced context.records w) :
    Safe M (fun w op => op.Traced w.ledger)
      (fun r w' => w' = w ∧ ∀ target, r = some target →
        .pendingApproval target.pending ∈ w.ledger)
      (fun _ w' => Trailed w')
      (findApprovalTarget context token decision) w := by
  unfold findApprovalTarget
  rw [Safe.bind_iff]
  apply hHost.safe_quiet (.findPendingApproval token) trivial
    nofun trivial
  intro answer hAllowed
  cases answer with
  | error error => exact hTrailed
  | ok found =>
      have hFound :
          found =
            findPendingApprovalByResumeToken w.ledger token :=
        hHost.allowed _ _ _ hAllowed
      cases found with
      | some pending =>
          refine ⟨rfl, ?_⟩
          rintro target ⟨⟩
          rcases StepRules.trackPendingApproval_mem
              hFound.symm with hNone | hMem
          · cases hNone
          · exact hMem
      | none =>
          refine ⟨rfl, ?_⟩
          intro target hTarget
          have hKnown : StepRules.IsTarget context w target :=
            StepRules.resolvedTarget_isTarget hTarget
          rcases hKnown with ⟨_, hMem⟩ | ⟨_, hMem, _⟩
          · exact hMem
          · exact hSourced _ hMem rfl

theorem audited_approvalStep
    {token : ResumeToken}
    {decision : ApprovalDecision}
    {metadata : Json}
    (hTrailed : Trailed w)
    (hSourced : Sourced context.records w) :
    Audited M
      (approvalStep engine context trigger token decision
        metadata stepsExecuted failures emittedEvents) w := by
  unfold approvalStep Audited
  refine Safe.bind (safe_findApprovalTarget_recorded hHost
    hTrailed hSourced) ?_
  rintro found w' ⟨rfl, hTarget⟩
  cases found with
  | none =>
      exact audited_callless hHost hTrailed
        callless_finishAdvance
  | some target =>
      have hPending := hTarget target rfl
      have hResolution :
          Callless (recordResolution target metadata) := by
        unfold recordResolution
        split
        · trivial
        · exact uses_appendOrFail trivial trivial
      dsimp only
      refine Safe.bind
        (hTrailed.safe_callless hHost hResolution) ?_
      rintro _ w'' ⟨_, hKept, hGrows⟩
      have hHere := hSourced.mono hGrows
      have hAsked : ∀ call ∈ target.pending.pendingCalls,
          AskedFor w''.ledger call :=
        hKept.pendings target.pending (hGrows.subset hPending)
      unfold resumeCalls
      cases target.decision with
      | rejected =>
          apply audited_afterBatch hHost hKept hHere hAsked
          intro result hResult
          rcases List.mem_map.mp hResult with ⟨call, hCall, rfl⟩
          exact ⟨call, hCall, rfl⟩
      | approved =>
          refine Safe.bind (safe_batch_traced hHost hKept
            hHere hAsked) ?_
          rintro r w' ⟨hKept', hGrows', hBatch⟩
          cases r with
          | suspended _ _ _ =>
              exact audited_callless hHost hKept'
                callless_finishAdvance
          | executed batch =>
              rcases hBatch with ⟨known, hKnown, hResults⟩
              exact audited_afterBatch hHost hKept'
                (hHere.mono hGrows') hKnown hResults

theorem audited_continueTrigger
    {request : ContinueRequest}
    {record : TriggerRecord}
    (hTrailed : Trailed w) :
    Audited M
      (continueTrigger engine request record w.snapshot) w := by
  have hSourced :
      Sourced
        (continueContext request record w.snapshot).records
        w :=
    sourced_ledger
  unfold continueTrigger
  dsimp only
  split
  · rename_i graph hActive
    have hGraph : graph ∈ toolGraphs w.ledger :=
      activeToolExecutionGraph_mem hActive
    have hAsked : ∀ call ∈ graph.nodes.map ToolNode.toCall,
        AskedFor w.ledger call := by
      intro call hCall
      rcases List.mem_map.mp hCall with ⟨node, hNode, rfl⟩
      exact hTrailed.graphs graph hGraph node hNode
    unfold resumeGraph Audited
    refine Safe.bind (safe_batch_traced hHost hTrailed
      hSourced hAsked) ?_
    rintro r w' ⟨hKept, hGrows, hBatch⟩
    cases r with
    | suspended _ _ _ =>
        exact audited_callless hHost hKept
          callless_finishAdvance
    | executed batch =>
        rcases hBatch with ⟨known, hKnown, hResults⟩
        exact audited_afterBatch hHost hKept
          (hSourced.mono hGrows) hKnown hResults
  · exact audited_performSingleStep hHost hTrailed hSourced

------------------------------------------------------------
-- Triggers
------------------------------------------------------------

theorem viewed_refreshSnapshot
    {snapshot : SessionSnapshot}
    (hTrailed : Trailed w)
    (hSourced : Sourced snapshot.records w) :
    Viewed M (refreshSnapshot snapshot) w := by
  unfold refreshSnapshot Viewed
  rw [Safe.bind_iff]
  apply hHost.safe_loadSession trivial
  · exact ⟨hTrailed, sourced_ledger⟩
  · intro _ _
    exact ⟨hTrailed, hSourced⟩

/- What precedes a view may be left out of sight. -/
theorem viewed_after
    {α : Type}
    {p : EngineM α}
    {f : α → EngineM SessionSnapshot}
    {records : List SessionRecord}
    (hTrailed : Trailed w)
    (hSourced : Sourced records w)
    (hCallless : Callless p)
    (hNext : ∀ a w', Trailed w' → Sourced records w' →
      Viewed M (f a) w') :
    Viewed M (p >>= f) w := by
  refine Safe.bind
    (hTrailed.safe_callless hHost hCallless) ?_
  rintro a w' ⟨_, hKept, hGrows⟩
  exact hNext a w' hKept (hSourced.mono hGrows)

theorem viewed_summarizeIfLong
    {request : ProcessRequest}
    {snapshot : SessionSnapshot}
    (hTrailed : Trailed w)
    (hSourced : Sourced snapshot.records w) :
    Viewed M (summarizeIfLong engine request snapshot) w := by
  unfold summarizeIfLong
  split
  · refine viewed_after hHost hTrailed hSourced
      (Uses.mono (fun _ h => h.callless) (fun _ h => h)
        incidental_summarizeHistory) ?_
    intro summary w' hKept hHere
    cases summary with
    | none => exact ⟨hKept, hHere⟩
    | some summary =>
        refine viewed_after hHost hKept hHere
          (uses_append trivial) ?_
        intro _ w'' hKept hHere
        exact viewed_refreshSnapshot hHost hKept hHere
  · exact ⟨hTrailed, hSourced⟩

theorem viewed_runPlanner
    {request : ProcessRequest}
    {snapshot : SessionSnapshot}
    (hTrailed : Trailed w)
    (hSourced : Sourced snapshot.records w) :
    Viewed M (runPlanner engine request snapshot) w := by
  unfold runPlanner
  split
  · refine viewed_after hHost hTrailed hSourced
      (p := Program.perform _) ⟨trivial, fun _ => trivial⟩ ?_
    intro output w' hKept hHere
    refine viewed_after hHost hKept hHere
      (Uses.mono (fun _ h => h.callless) (fun _ h => h)
        incidental_appendPlannedEvents) ?_
    intro _ w' hKept hHere
    refine viewed_after hHost hKept hHere
      (Uses.mono (fun _ h => h.callless) (fun _ h => h)
        incidental_appendProposedPlan) ?_
    intro _ w' hKept hHere
    dsimp only
    split
    · refine Safe.bind
        (viewed_refreshSnapshot hHost hKept hHere) ?_
      rintro refreshed w'' ⟨hKept, hHere⟩
      exact viewed_summarizeIfLong hHost hKept hHere
    · exact viewed_summarizeIfLong hHost hKept hHere
  · exact ⟨hTrailed, hSourced⟩

theorem audited_triggerStep
    {request : ProcessRequest}
    {triggerId : String}
    {snapshot : SessionSnapshot}
    (hTrailed : Trailed w)
    (hSourced : Sourced snapshot.records w) :
    Audited M (triggerStep engine request triggerId snapshot)
      w := by
  unfold triggerStep Audited
  dsimp only
  refine Safe.bind (hTrailed.safe_callless hHost
    (uses_persistKernelEvents fun _ => trivial)) ?_
  rintro context' w' ⟨⟨hRecords, _⟩, hKept, hGrows⟩
  have hHere : Sourced context'.records w' := by
    rw [hRecords]
    apply (hSourced.mono hGrows).push_all
    intro record hMem
    rcases List.mem_map.mp hMem with ⟨event, _, rfl⟩
    rfl
  split
  · exact audited_approvalStep hHost hKept hHere
  · exact audited_performSingleStep hHost hKept hHere

/- A trigger starts from the cached view or the ledger. -/
theorem audited_processTrigger
    {request : ProcessRequest}
    {record : TriggerRecord}
    (hTrailed : Trailed w)
    (hCached : ∀ cached, w.cache = some cached →
      Sourced cached.records w) :
    Audited M (processTrigger engine request record) w := by
  have hRest : ∀ (snapshot : SessionSnapshot),
      Sourced snapshot.records w →
        Audited M
          (append (.triggerIntent
              { triggerId := record.triggerId
                intent := classifyTriggerIntent
                  engine.rendering request.trigger }) >>=
            fun _ => refreshSnapshot snapshot >>=
              fun snapshot =>
                runPlanner engine request snapshot >>=
                  fun snapshot =>
                    triggerStep engine request
                      record.triggerId snapshot) w := by
    intro snapshot hSourced
    refine Safe.bind (hTrailed.safe_callless hHost
      (uses_append trivial)) ?_
    rintro _ w' ⟨_, hKept, hGrows⟩
    refine Safe.bind (viewed_refreshSnapshot hHost hKept
      (hSourced.mono hGrows)) ?_
    rintro refreshed w' ⟨hKept, hHere⟩
    refine Safe.bind
      (viewed_runPlanner hHost hKept hHere) ?_
    rintro planned w' ⟨hKept, hHere⟩
    exact audited_triggerStep hHost hKept hHere
  unfold processTrigger loadTriggerSnapshot Audited
  rw [Program.bind_assoc, Safe.bind_iff]
  apply hHost.safe_quiet .getProjection trivial nofun trivial
  intro cached hAllowed
  cases cached with
  | some cached =>
      rcases hHost.allowed _ _ _ hAllowed with hNone | hSame
      · cases hNone
      · apply hRest
          { cached with
            records := cached.records ++ [.trigger record] }
        apply (hCached cached hSame.symm).push_all
        intro other hMem
        rw [List.mem_singleton.mp hMem]
        rfl
  | none =>
      dsimp only
      rw [Safe.bind_iff]
      apply hHost.safe_loadSession trivial
      · exact hRest w.snapshot sourced_ledger
      · intro _ _
        exact hTrailed

/-
  Whatever an advance asks for is traced, if the projection it
  may find in the cache has been recorded.
-/
theorem audited_advance
    {request : AdvanceRequest}
    (hTrailed : Trailed w)
    (hCached : ∀ cached, w.cache = some cached →
      Sourced cached.records w) :
    Audited M (advance engine request) w := by
  cases request with
  | trigger request =>
      apply hHost.safe_advanceTrigger trivial
      · intros
        trivial
      · intro triggerId _ _ _
        exact hTrailed.issue triggerId
      · intro triggerId _ _
        refine ⟨trivial, fun _ _ => hTrailed.issue triggerId, ?_⟩
        apply audited_processTrigger hHost
        · exact (hTrailed.issue triggerId).append trivial
        · intro cached hHere
          exact (hCached cached hHere).mono
            (List.prefix_append _ _)
  | continueWith request =>
      apply hHost.safe_advanceContinue trivial
      · intros
        exact hTrailed
      · intro _
        refine ⟨trivial, fun triggerId _ => ?_⟩
        exact hTrailed.issue triggerId
      · intro record _
        exact audited_continueTrigger hHost hTrailed

end Actions

end Walk

------------------------------------------------------------
-- Runs
------------------------------------------------------------

/- What the ledger of a session accounts for. -/
structure Traceable (w : World) : Prop where
  trailed : Trailed w
  cached : ∀ cached, w.cache = some cached →
    Backed cached.records w

theorem Traceable.advance
    {t : Advance}
    (hRuns : t.Runs host)
    (hTraceable : Traceable t.before) :
    Traceable t.after := by
  have hAudited : Audited host
      (RainEngine.advance t.engine t.request) t.before :=
    audited_advance OnHost.host hTraceable.trailed
      fun cached hHere =>
        (hTraceable.cached cached hHere).sourced
  constructor
  · refine (Safe.invariant hAudited hRuns ?_
      hTraceable.trailed).2
    intro w op a hHere hTraced _
    exact hHere.next _ _ hTraced
  · -- no skill is guarded: only the cache is of interest
    have hCleared : Cleared (fun _ => False) t.before :=
      ⟨fun _ _ _ _ hGuarded => hGuarded.elim,
        hTraceable.cached⟩
    exact (cleared_advance hRuns
      (fun _ hGuarded => hGuarded.elim) hCleared).cached

/-
  In every run of a new session, each call that is executed,
  stored in a graph or held back for an approval stands in a
  decision or a plan that the ledger holds by then, and so does
  each call that a checkpoint, a validation, a tool call or a
  result is recorded of.
-/
theorem run_traced
    (sessionId : String)
    (run : List Advance)
    (w : World)
    (hRun : Run host (World.empty sessionId) run w) :
    ∀ t ∈ run, ∀ s ∈ t.steps, s.op.Traced s.before.ledger := by
  intro t hMem s hStep
  have hStart : Traceable (World.empty sessionId) :=
    ⟨trailed_empty sessionId, fun _ hCached => nomatch hCached⟩
  have hBefore : Traceable t.before :=
    (hRun.preserves (fun _ _ hRuns hHere =>
      Traceable.advance hRuns hHere) hStart).1 t hMem
  have hAudited : Audited host
      (RainEngine.advance t.engine t.request) t.before :=
    audited_advance OnHost.host hBefore.trailed
      fun cached hHere => (hBefore.cached cached hHere).sourced
  exact Safe.steps hAudited (hRun.runs t hMem) s hStep

namespace Sample

/- A provider that calls a skill, in a session that goes on. -/
def tracedTurns : List (Script × AdvanceRequest) :=
  [(callsFirst [call "a" .null], .trigger message),
    (callsFirst [call "a" .null], .continueWith resume)]

def tracedRun : List Advance :=
  Script.advances engine tracedTurns (World.empty "session")

end Sample

set_option maxRecDepth 100000 in
/- Also the call of a skill that is executed. -/
theorem run_traced_echo :
    (∀ t ∈ Sample.tracedRun, ∀ s ∈ t.steps,
      s.op.Traced s.before.ledger) ∧
      (Sample.tracedRun.any fun t => t.steps.any fun s =>
        s.op matches .execute _ _) = true := by
  refine ⟨run_traced "session" _ _ (Run.of_reliable
    (Script.session_run Sample.engine Sample.tracedTurns
      (World.empty "session"))), ?_⟩
  decide +kernel

end RainEngine
