import RainEngine.Advances.Actions

/-
  This file proves the rules for whole advances: the reading
  of the ledger, the planner, approvals, the advance of a
  recorded trigger, and the continuation of a session.

  Key definitions include:
    * `Views`
    * `IsTarget`
    * `priorOutcome`

  Key theorems include:
    * `StepRules.views_runPlanner`
    * `StepRules.safe_approvalStep`
    * `StepRules.safe_processTrigger`
    * `StepRules.safe_continueTrigger`
    * `OnHost.safe_advanceTrigger`
    * `OnHost.safe_advanceContinue`
-/

namespace RainEngine

open Effects

namespace StepRules

variable {M : Machine Op Answer World}
variable {engine : AgentEngine}
variable {A : Assertions}
variable {context : AgentContext}
variable {w : World}
variable (hHost : OnHost M)
variable (hRules : StepRules M engine A)

include hHost hRules

------------------------------------------------------------
-- Planning
------------------------------------------------------------

/- A program that keeps a view of the ledger. -/
def Views
    (M : Machine Op Answer World)
    (A : Assertions)
    (p : EngineM SessionSnapshot)
    (w : World) :
    Prop :=
  Safe M A.request
    (fun snapshot w' =>
      A.holds (.viewing true snapshot.records) w')
    (fun _ w' => A.thrown w') p w

theorem views_refreshSnapshot
    {flag : Bool}
    {snapshot : SessionSnapshot}
    (hHolds : A.holds (.viewing flag snapshot.records) w) :
    Views M A (refreshSnapshot snapshot) w := by
  unfold refreshSnapshot Views
  rw [Safe.bind_iff]
  apply hHost.safe_loadSession (hRules.quiet hHolds trivial)
  · exact hRules.fresh hHolds
  · intro error hFails
    exact hRules.stale hHolds hFails

theorem safe_appendPlannedEvents
    {flag : Bool}
    {records : List SessionRecord}
    {events : List KernelEvent}
    (hHolds : A.holds (.viewing flag records) w) :
    Safe M A.request
      (fun _ w' =>
        if events = [] then
          A.holds (.viewing flag records) w'
        else A.holds (.viewing false records) w')
      (fun _ w' => A.thrown w')
      (appendPlannedEvents events) w := by
  induction events generalizing flag w with
  | nil => exact hHolds
  | cons event rest ih =>
      unfold appendPlannedEvents
      rw [Safe.bind_iff]
      apply hRules.safe_newUuid hHost hHolds
      intro uuid w' hHolds
      have hLag : A.holds (.viewing false records) w' :=
        hRules.lag hHolds
      have hRest : ∀ w', A.holds (.viewing false records) w' →
          Safe M A.request
            (fun _ w' =>
              if event :: rest = [] then
                A.holds (.viewing flag records) w'
              else A.holds (.viewing false records) w')
            (fun _ w' => A.thrown w')
            (appendPlannedEvents rest) w' := by
        intro w' hHolds
        refine Safe.mono (fun _ _ h => h) ?_
          (fun _ _ h => h) (ih hHolds)
        intro _ w'' hEither
        rw [ite_self] at hEither
        rw [if_neg (List.cons_ne_nil _ _)]
        exact hEither
      rw [Safe.bind_iff]
      apply hHost.safe_append
        (hRules.note hHolds (by trivial))
      · exact hRest _ (hRules.noted hLag (by trivial))
      · intro error _
        exact hRest _ hLag

theorem safe_appendProposedPlan
    {flag : Bool}
    {records : List SessionRecord}
    {plan : Option ExecutionPlan}
    (hHolds : A.holds (.viewing flag records) w) :
    Safe M A.request
      (fun _ w' =>
        if plan = none then
          A.holds (.viewing flag records) w'
        else A.holds (.viewing false records) w')
      (fun _ w' => A.thrown w')
      (appendProposedPlan plan) w := by
  cases plan with
  | none => exact hHolds
  | some plan =>
      unfold appendProposedPlan
      rw [Safe.bind_iff]
      apply hHost.safe_newUuid (hRules.quiet hHolds trivial)
      intro uuid hFresh
      rw [Safe.bind_iff]
      have hPropose := hRules.propose
        { planId := "plan-" ++ uuid
          objective := plan.objective
          steps := plan.steps
          currentStepIndex := 0
          completedAt := false }
        hHolds hFresh rfl rfl rfl
      refine hHost.safe_append hPropose.1 hPropose.2 ?_
      intro error _
      exact hRules.lag (hRules.issue hHolds hFresh)

theorem views_summarizeIfLong
    {request : ProcessRequest}
    {snapshot : SessionSnapshot}
    (hHolds : A.holds (.viewing true snapshot.records) w) :
    Views M A (summarizeIfLong engine request snapshot)
      w := by
  unfold summarizeIfLong Views
  split
  · have hSummary :
        Safe M A.request
          (fun _ w' =>
            A.holds (.viewing true snapshot.records) w')
          (fun _ w' => A.thrown w')
          (summarizeHistory engine snapshot request.policy
            request.trigger) w := by
      unfold summarizeHistory
      rw [Safe.bind_iff, safe_perform]
      refine ⟨hRules.summarize hHolds, ?_⟩
      intro answer _
      rw [hHost.next]
      split
      · rw [Safe.bind_iff]
        apply hRules.safe_newUuid hHost hHolds
        intro uuid w' hHolds
        exact hHolds
      · exact hHolds
    refine Safe.bind hSummary ?_
    intro summary w' hHolds
    cases summary with
    | none => exact hHolds
    | some summary =>
        dsimp only
        rw [Safe.bind_iff]
        apply hHost.safe_append
          (hRules.note hHolds (by trivial))
        · exact hRules.views_refreshSnapshot hHost
            (hRules.noted hHolds (by trivial))
        · intro error _
          exact hRules.views_refreshSnapshot hHost hHolds
  · exact hHolds

theorem views_runPlanner
    {request : ProcessRequest}
    {snapshot : SessionSnapshot}
    (hHolds : A.holds (.viewing true snapshot.records) w) :
    Views M A (runPlanner engine request snapshot) w := by
  unfold runPlanner Views
  split
  · rw [Safe.bind_iff]
    apply hHost.safe_quiet (.plan _ _) trivial nofun
      (hRules.quiet hHolds trivial)
    intro output _
    refine Safe.bind
      (hRules.safe_appendPlannedEvents hHost hHolds) ?_
    intro _ w' hEvents
    have hEither : ∃ flag,
        A.holds (.viewing flag snapshot.records) w' ∧
          (output.events = [] → flag = true) := by
      by_cases hNone : output.events = []
      · rw [if_pos hNone] at hEvents
        exact ⟨true, hEvents, fun _ => rfl⟩
      · rw [if_neg hNone] at hEvents
        exact ⟨false, hEvents, fun h => absurd h hNone⟩
    rcases hEither with ⟨flag, hHolds, hFlag⟩
    refine Safe.bind
      (hRules.safe_appendProposedPlan hHost hHolds) ?_
    intro _ w'' hPlan
    dsimp only
    split
    · have hLag :
          A.holds (.viewing false snapshot.records) w'' := by
        by_cases hNone : output.proposedPlan = none
        · rw [if_pos hNone] at hPlan
          exact hRules.lag hPlan
        · rw [if_neg hNone] at hPlan
          exact hPlan
      refine Safe.bind
        (hRules.views_refreshSnapshot hHost hLag) ?_
      intro refreshed w' hHolds
      exact hRules.views_summarizeIfLong hHost hHolds
    · rename_i hSame
      rw [Bool.or_eq_true, not_or] at hSame
      have hNone : output.proposedPlan = none := by
        simpa using hSame.2
      have hNil : output.events = [] := by
        simpa using hSame.1
      rw [if_pos hNone, hFlag hNil] at hPlan
      exact hRules.views_summarizeIfLong hHost hPlan
  · exact hHolds

------------------------------------------------------------
-- Approvals
------------------------------------------------------------

/- The token's approval is pending or has been resolved. -/
def IsTarget
    (context : AgentContext)
    (w : World)
    (target : ApprovalTarget) :
    Prop :=
  (target.alreadyResolved = false ∧
    .pendingApproval target.pending ∈ w.ledger) ∨
  (target.alreadyResolved = true ∧
    .pendingApproval target.pending ∈ context.records ∧
    ∃ resolution,
      .approvalResolution resolution ∈ context.records ∧
        resolution.resumeToken =
          target.pending.resumeToken ∧
        resolution.decision = target.decision)

omit hHost hRules in
theorem trackPendingApproval_mem
    {records : List SessionRecord}
    {token : ResumeToken}
    {start : Option PendingApprovalRecord}
    {pending : PendingApprovalRecord}
    (hFound :
      records.foldl (trackPendingApproval token) start =
        some pending) :
    start = some pending ∨
      .pendingApproval pending ∈ records := by
  induction records generalizing start with
  | nil => exact .inl hFound
  | cons record rest ih =>
      rcases ih hFound with hStart | hMem
      · cases record with
        | pendingApproval other =>
            simp only [trackPendingApproval] at hStart
            split at hStart
            · cases hStart
              exact .inr (by simp)
            · exact .inl hStart
        | approvalResolution other =>
            simp only [trackPendingApproval] at hStart
            split at hStart
            · cases hStart
            · exact .inl hStart
        | _ => exact .inl hStart
      · exact .inr (by simp [hMem])

omit hHost hRules in
/- A resolved target is read off two records of the token. -/
theorem resolvedTarget_reads
    {records : List SessionRecord}
    {token : ResumeToken}
    {target : ApprovalTarget}
    (hTarget : resolvedTarget records token = some target) :
    target.alreadyResolved = true ∧
      .pendingApproval target.pending ∈ records ∧
      target.pending.resumeToken = token ∧
      ∃ resolution,
        .approvalResolution resolution ∈ records ∧
          resolution.resumeToken = token ∧
          resolution.decision = target.decision := by
  unfold resolvedTarget at hTarget
  rw [Option.bind_eq_bind, Option.bind_eq_some_iff] at hTarget
  rcases hTarget with ⟨resolution, hResolution, hRest⟩
  rw [Option.bind_eq_bind, Option.bind_eq_some_iff] at hRest
  rcases hRest with ⟨pending, hPending, hEq⟩
  cases hEq
  unfold recordedResolution at hResolution
  unfold recordedPending at hPending
  rcases List.exists_of_findSome?_eq_some hResolution with
    ⟨record, hMem, hFilter⟩
  rcases List.exists_of_findSome?_eq_some hPending with
    ⟨record', hMem', hFilter'⟩
  rw [Option.filter_eq_some_iff] at hFilter hFilter'
  have hToken : resolution.resumeToken = token := by
    simpa using hFilter.2
  have hToken' : pending.resumeToken = token := by
    simpa using hFilter'.2
  cases record with
  | approvalResolution _ =>
      cases hFilter.1
      cases record' with
      | pendingApproval _ =>
          cases hFilter'.1
          exact ⟨rfl, hMem', hToken', _, hMem, hToken, rfl⟩
      | _ => cases hFilter'.1
  | _ => cases hFilter.1

omit hHost hRules in
theorem resolvedTarget_isTarget
    {token : ResumeToken}
    {target : ApprovalTarget}
    (hTarget :
      resolvedTarget context.records token = some target) :
    IsTarget context w target := by
  rcases resolvedTarget_reads hTarget with
    ⟨hFlag, hPending, hToken, resolution, hMem, hSame,
      hDecision⟩
  exact .inr ⟨hFlag, hPending, resolution, hMem,
    hSame.trans hToken.symm, hDecision⟩

theorem safe_findApprovalTarget
    {token : ResumeToken}
    {decision : ApprovalDecision}
    (hHolds : A.holds (.acting true context) w) :
    Safe M A.request
      (fun r w' => A.holds (.acting true context) w' ∧
        ∀ target, r = some target →
          IsTarget context w' target)
      (fun _ w' => A.thrown w')
      (findApprovalTarget context token decision) w := by
  unfold findApprovalTarget
  rw [Safe.bind_iff]
  apply hHost.safe_quiet (.findPendingApproval token) trivial
    nofun (hRules.quiet hHolds trivial)
  intro answer hAllowed
  cases answer with
  | error error =>
      exact hRules.thrown hHolds ⟨_, _, hAllowed, nofun⟩
  | ok found =>
      have hFound :
          found =
            findPendingApprovalByResumeToken w.ledger token :=
        hHost.allowed _ _ _ hAllowed
      cases found with
      | none =>
          exact ⟨hHolds, fun target hTarget =>
            resolvedTarget_isTarget hTarget⟩
      | some pending =>
          refine ⟨hHolds, ?_⟩
          rintro target ⟨⟩
          rcases trackPendingApproval_mem hFound.symm with
            hNone | hMem
          · cases hNone
          · exact .inl ⟨rfl, hMem⟩

/- The resolution of a target is known when its calls run. -/
theorem safe_resumeCalls
    {target : ApprovalTarget}
    (metadata : Json)
    (hHolds : A.holds (.acting true context) w)
    (hTarget : IsTarget context w target) :
    Safe M A.request
      (fun r w' =>
        match r with
        | .executed batch =>
            A.results true context batch.results w'
        | .suspended _ _ _ =>
            A.holds (.acting true context) w')
      (fun _ w' => A.thrown w')
      (recordResolution target metadata >>= fun _ =>
        resumeCalls engine context target) w := by
  rcases target with ⟨pending, alreadyResolved, decision⟩
  rcases hTarget with ⟨hFlag, hPending⟩ |
    ⟨hFlag, hPending, resolution, hMem, hToken, hDecision⟩
  · dsimp only at hFlag hPending
    subst hFlag
    rw [Safe.bind_iff]
    have hResolve := hRules.resolve
      { resumeToken := pending.resumeToken
        decision := decision
        metadata := metadata }
      hHolds hPending rfl
    apply hHost.safe_appendOrFail hResolve.1
    · cases decision with
      | rejected => exact hRules.reject hResolve.2
      | approved =>
          exact hRules.batch hResolve.2
            (.of_resolved hPending rfl rfl)
    · intro error hFails
      exact hRules.thrown hHolds hFails
  · dsimp only at hFlag hPending hToken hDecision
    subst hFlag
    cases decision with
    | rejected => exact hRules.reject hHolds
    | approved =>
        exact hRules.batch hHolds (.approved (.inr hPending)
          (.inr hMem) hToken hDecision)

theorem safe_approvalStep
    {trigger : AgentTrigger}
    {token : ResumeToken}
    {decision : ApprovalDecision}
    {metadata : Json}
    {stepsExecuted failures : Nat}
    {emittedEvents : List KernelEventRecord}
    (hHolds : A.holds (.acting true context) w) :
    Ends M A
      (approvalStep engine context trigger token decision
        metadata stepsExecuted failures emittedEvents) w := by
  unfold approvalStep Ends
  refine Safe.bind
    (hRules.safe_findApprovalTarget hHost hHolds) ?_
  rintro found w' ⟨hHolds, hTarget⟩
  cases found with
  | none => exact hRules.safe_finishAdvance hHolds
  | some target =>
      have hResumed := hRules.safe_resumeCalls hHost metadata
        hHolds (hTarget target rfl)
      dsimp only
      rw [← Program.bind_assoc]
      refine Safe.bind hResumed ?_
      intro execution w'' hExecution
      cases execution with
      | suspended reason pendingCalls resumeToken =>
          exact hRules.safe_finishAdvance hExecution
      | executed batch =>
          refine Safe.bind (hRules.safe_recordResultsOrFail
            hHost hExecution) ?_
          intro context' w' hHolds
          exact hRules.safe_performSingleStep hHost hHolds

------------------------------------------------------------
-- Triggers And Continuations
------------------------------------------------------------

theorem safe_triggerStep
    {request : ProcessRequest}
    {triggerId : String}
    {snapshot : SessionSnapshot}
    (hHolds :
      A.holds
        (.acting true
          (triggerContext request triggerId snapshot)) w) :
    Ends M A (triggerStep engine request triggerId snapshot)
      w := by
  unfold triggerStep Ends
  dsimp only
  refine Safe.bind
    (hRules.safe_persistKernelEvents hHost hHolds) ?_
  rintro context' w' ⟨hHolds, _, _⟩
  split
  · exact hRules.safe_approvalStep hHost hHolds
  · exact hRules.safe_performSingleStep hHost hHolds

/- A trigger starts from the cached view or the ledger. -/
theorem safe_processTrigger
    {request : ProcessRequest}
    {trigger : TriggerRecord}
    (hCached : ∀ cached, w.cache = some cached →
      A.holds
        (.viewing false (cached.records ++ [.trigger trigger]))
        w)
    (hLedger : A.holds (.viewing false w.ledger) w)
    (hFailed : ∀ error, StoreFails M w →
      A.returned
        (some (storageFailureOutcome trigger.triggerId 0
          error)) w)
    (hEnter : ∀ (snapshot : SessionSnapshot) w',
      A.holds (.viewing true snapshot.records) w' →
        A.holds
          (.acting true
            (triggerContext request trigger.triggerId
              snapshot)) w') :
    Ends M A (processTrigger engine request trigger) w := by
  have hRest : ∀ (snapshot : SessionSnapshot) (w' : World),
      A.holds (.viewing false snapshot.records) w' →
        Ends M A
          (refreshSnapshot snapshot >>= fun snapshot =>
            runPlanner engine request snapshot >>=
              fun snapshot =>
                triggerStep engine request trigger.triggerId
                  snapshot) w' := by
    intro snapshot w' hHolds
    refine Safe.bind
      (hRules.views_refreshSnapshot hHost hHolds) ?_
    intro refreshed w'' hHolds
    refine Safe.bind (hRules.views_runPlanner hHost hHolds) ?_
    intro planned w' hHolds
    exact hRules.safe_triggerStep hHost
      (hEnter planned w' hHolds)
  have hNoted : ∀ (snapshot : SessionSnapshot),
      A.holds (.viewing false snapshot.records) w →
        Ends M A
          (append (.triggerIntent
              { triggerId := trigger.triggerId
                intent := classifyTriggerIntent
                  engine.rendering request.trigger }) >>=
            fun _ => refreshSnapshot snapshot >>=
              fun snapshot =>
                runPlanner engine request snapshot >>=
                  fun snapshot =>
                    triggerStep engine request
                      trigger.triggerId snapshot) w := by
    intro snapshot hHolds
    unfold Ends
    rw [Safe.bind_iff]
    apply hHost.safe_append (hRules.note hHolds (by trivial))
    · exact hRest _ _ (hRules.noted hHolds (by trivial))
    · intro error _
      exact hRest _ _ hHolds
  unfold processTrigger loadTriggerSnapshot Ends
  rw [Program.bind_assoc, Safe.bind_iff]
  apply hHost.safe_quiet .getProjection trivial nofun
    (hRules.quiet hLedger trivial)
  intro cached hAllowed
  cases cached with
  | some cached =>
      rcases hHost.allowed _ _ _ hAllowed with hNone | hSame
      · cases hNone
      · exact hNoted
          { cached with
            records := cached.records ++ [.trigger trigger] }
          (hCached cached hSame.symm)
  | none =>
      dsimp only
      rw [Safe.bind_iff]
      apply hHost.safe_loadSession
        (hRules.quiet hLedger trivial)
      · exact hNoted w.snapshot hLedger
      · intro error hFails
        exact hFailed error hFails.storeFails

theorem safe_resumeGraph
    {trigger : AgentTrigger}
    {graph : ToolExecutionGraph}
    {snapshot : SessionSnapshot}
    (hHolds : A.holds (.acting true context) w)
    (hActive :
      activeToolExecutionGraph context.records =
        some graph) :
    Ends M A
      (resumeGraph engine context trigger graph snapshot)
      w := by
  unfold resumeGraph Ends
  refine Safe.bind
    (hRules.batch hHolds (.unfinished hActive)) ?_
  intro execution w' hExecution
  cases execution with
  | suspended reason pendingCalls resumeToken =>
      exact hRules.safe_finishAdvance hExecution
  | executed batch =>
      refine Safe.bind (hRules.safe_recordResultsOrFail
        hHost hExecution) ?_
      intro context' w'' hHolds
      exact hRules.safe_performSingleStep hHost hHolds

theorem safe_continueTrigger
    {request : ContinueRequest}
    {trigger : TriggerRecord}
    {snapshot : SessionSnapshot}
    (hHolds :
      A.holds
        (.acting true
          (continueContext request trigger snapshot)) w) :
    Ends M A
      (continueTrigger engine request trigger snapshot)
      w := by
  unfold continueTrigger
  dsimp only
  split
  · rename_i graph hActive
    exact hRules.safe_resumeGraph hHost hHolds hActive
  · exact hRules.safe_performSingleStep hHost hHolds

end StepRules

------------------------------------------------------------
-- Whole Advances
------------------------------------------------------------

/- The trigger a request records under an identifier. -/
def ProcessRequest.record
    (request : ProcessRequest)
    (triggerId : String) :
    TriggerRecord where
  triggerId := triggerId
  sessionId := request.sessionId
  idempotencyKey := request.idempotencyKey
  trigger := request.trigger
  intent := none

/- The outcome the ledger holds for a request's key. -/
def priorOutcome
    (records : List SessionRecord)
    (request : ProcessRequest) :
    Option EngineOutcome :=
  request.idempotencyKey.bind
    (findOutcomeByIdempotencyKey records)

section Advances

variable {M : Machine Op Answer World}
variable {engine : AgentEngine}
variable {P : World → Op → Prop}
variable {Q : AdvanceResult → World → Prop}
variable {R : EngineError → World → Prop}
variable {w : World}

theorem OnHost.safe_findPriorOutcome
    {Q : Option EngineOutcome → World → Prop}
    {request : ProcessRequest}
    (hHost : OnHost M)
    (hRequest : ∀ key, P w (.findOutcome key))
    (hFound : Q (priorOutcome w.ledger request) w)
    (hFailed : StoreFails M w → Q none w) :
    Safe M P Q R (findPriorOutcome request.idempotencyKey)
      w := by
  unfold priorOutcome at hFound
  cases hKey : request.idempotencyKey with
  | none =>
      rw [hKey] at hFound
      exact hFound
  | some key =>
      rw [hKey] at hFound
      unfold findPriorOutcome
      rw [Safe.bind_iff]
      apply hHost.safe_quiet (.findOutcome key) trivial nofun
        (hRequest key)
      intro answer hAllowed
      cases answer with
      | error error =>
          exact hFailed ⟨_, _, hAllowed, nofun⟩
      | ok found =>
          have hSame :
              found =
                findOutcomeByIdempotencyKey w.ledger key :=
            hHost.allowed _ _ _ hAllowed
          subst hSame
          exact hFound

/-
  A trigger request replays the outcome of its key, or
  records its trigger and goes on.
-/
theorem OnHost.safe_advanceTrigger
    {request : ProcessRequest}
    (hHost : OnHost M)
    (hIssue : P w .newUuid)
    (hFind : ∀ triggerId, triggerId ∉ w.issued → ∀ key,
      P (w.issue triggerId) (.findOutcome key))
    (hReplay : ∀ triggerId, triggerId ∉ w.issued →
      ∀ prior, priorOutcome w.ledger request = some prior →
        Q (outcomeOnly
            { prior with idempotentReplay := true } [])
          (w.issue triggerId))
    (hTrigger : ∀ triggerId, triggerId ∉ w.issued →
      (priorOutcome w.ledger request = none ∨
        StoreFails M (w.issue triggerId)) →
        P (w.issue triggerId)
            (.append (.trigger (request.record triggerId))) ∧
          (∀ error, StoreFails M (w.issue triggerId) →
            Q (outcomeOnly
                (storageFailureOutcome triggerId 0 error) [])
              (w.issue triggerId)) ∧
          Safe M P Q R
            (processTrigger engine request
              (request.record triggerId))
            ((w.issue triggerId).append
              (.trigger (request.record triggerId)))) :
    Safe M P Q R (advanceTrigger engine request) w := by
  unfold advanceTrigger
  rw [Safe.bind_iff]
  apply hHost.safe_newUuid hIssue
  intro triggerId hFresh
  have hRecord := hTrigger triggerId hFresh
  rw [Safe.bind_iff]
  apply hHost.safe_findPriorOutcome
    (hFind triggerId hFresh)
  · cases hPrior : priorOutcome w.ledger request with
    | some prior =>
        rw [World.issue_ledger, hPrior]
        exact hReplay triggerId hFresh prior hPrior
    | none =>
        rw [World.issue_ledger, hPrior]
        rcases hRecord (.inl hPrior) with
          ⟨hAppend, hLost, hProcess⟩
        rw [Safe.bind_iff]
        exact hHost.safe_append hAppend hProcess hLost
  · intro hFails
    rcases hRecord (.inr hFails) with
      ⟨hAppend, hLost, hProcess⟩
    rw [Safe.bind_iff]
    exact hHost.safe_append hAppend hProcess hLost

/- A continuation reads the ledger and goes on from there. -/
theorem OnHost.safe_advanceContinue
    {request : ContinueRequest}
    (hHost : OnHost M)
    (hLoad : P w .loadSession)
    (hLost : ∀ error, StoreFails M w →
      Q (outcomeOnly
          (storageFailureOutcome request.sessionId 0 error)
          []) w)
    (hNone : activeTrigger w.ledger = none →
      P w .newUuid ∧ ∀ triggerId, triggerId ∉ w.issued →
        Q (outcomeOnly (nothingToContinue triggerId) [])
          (w.issue triggerId))
    (hSome : ∀ trigger,
      activeTrigger w.ledger = some trigger →
        Safe M P Q R
          (continueTrigger engine request trigger w.snapshot)
          w) :
    Safe M P Q R (advanceContinue engine request) w := by
  unfold advanceContinue
  rw [Safe.bind_iff]
  apply hHost.safe_loadSession hLoad
  · dsimp only
    cases hActive : activeTrigger w.ledger with
    | some trigger =>
        have hSnapshot :
            activeTrigger w.snapshot.records = some trigger :=
          hActive
        rw [hSnapshot]
        exact hSome trigger hActive
    | none =>
        have hSnapshot :
            activeTrigger w.snapshot.records = none :=
          hActive
        rw [hSnapshot]
        rcases hNone hActive with ⟨hIssue, hNothing⟩
        rw [Safe.bind_iff]
        apply hHost.safe_newUuid hIssue
        intro triggerId hFresh
        exact hNothing triggerId hFresh
  · intro error hFails
    exact hLost error hFails.storeFails

end Advances

end RainEngine
