import RainEngine.Advances.Sequels
import RainEngine.Approvals.Races
import RainEngine.Batches.Coverage
import RainEngine.Effects.Handovers

/-
  This file splits an advance at the step of its own: a step
  of its plan, or a question to the provider. What it records
  before are the results of the calls it resumes.

  Key definitions include:
    * `beforeStep`
    * `Advance.resumed`
    * `IsMarginal`
    * `TakesStep`
    * `TakesApproval`
    * `Advance.Proceeds`

  Key theorems include:
    * `goesOn_performSingleStep`
    * `handsOver_advanceTrigger`
    * `Advance.handsOver`
-/

namespace RainEngine

open Effects

------------------------------------------------------------
-- Before The Step
------------------------------------------------------------

/- The requests of an advance before a step of its own. -/
def beforeStep
    (steps : List (Step Op Answer World)) :
    List (Step Op Answer World) :=
  steps.takeWhile fun s => !s.op.startsStep

/- The results an advance records before a step of its own. -/
def Advance.resumed
    (t : Advance) :
    List ToolResultRecord :=
  toolResults (storedIn (beforeStep t.steps))

/- Records that are no part of an approval or of a batch. -/
def IsMarginal : SessionRecord → Prop
| .approvalResolution _ => False
| .pendingApproval _ => False
| .toolResult _ => False
| .toolExecutionGraph _ => False
| .toolNodeCheckpoint _ => False
| _ => True

/- A request that appends nothing but such records. -/
def Op.Marginal : Op → Prop
| .append record => IsMarginal record
| _ => True

/- Neither a step, nor an execution, nor a part of a batch. -/
structure Op.Aside (op : Op) : Prop where
  waits : op.startsStep = false
  idle : ¬op.Executes
  marginal : op.Marginal

/-
  The program takes its step with its next request, or it
  makes no request.
-/
def TakesStep (p : EngineM AdvanceResult) : Prop :=
  ∀ op k, p = .request op k → op.startsStep = true

theorem takesStep_pure
    (result : AdvanceResult) :
    TakesStep (.pure result) := by
  rintro op k ⟨⟩

theorem takesStep_throw
    (error : EngineError) :
    TakesStep (.throw error) := by
  rintro op k ⟨⟩

/- Nothing comes before the step of such a program. -/
theorem TakesStep.beforeStep_eq
    {M : Machine Op Answer World}
    {p : EngineM AdvanceResult}
    {steps : List (Step Op Answer World)}
    {w w' : World}
    {r : Option (Except EngineError AdvanceResult)}
    (hTakes : TakesStep p)
    (hExec : Exec M w p steps w' r) :
    beforeStep steps = [] := by
  cases hExec with
  | stop => rfl
  | pure => rfl
  | throw => rfl
  | request hAllowed hRest =>
      apply List.takeWhile_cons_of_neg
      simp [hTakes _ _ rfl]

/- Nothing is resumed before the program takes its step. -/
abbrev GoesOn (p : EngineM AdvanceResult) : Prop :=
  Leads Op.Aside TakesStep p

theorem IsMarginal.not_result
    {record : SessionRecord}
    (hMarginal : IsMarginal record) :
    record.asToolResult = none := by
  cases record with
  | toolResult _ => exact hMarginal.elim
  | _ => rfl

theorem IsMarginal.not_graph
    {record : SessionRecord}
    (hMarginal : IsMarginal record) :
    record.asToolExecutionGraph = none := by
  cases record with
  | toolExecutionGraph _ => exact hMarginal.elim
  | _ => rfl

theorem IsMarginal.not_resolution
    {record : SessionRecord}
    (hMarginal : IsMarginal record) :
    record.asApprovalResolution = none := by
  cases record with
  | approvalResolution _ => exact hMarginal.elim
  | _ => rfl

section Steps

variable {M : Machine Op Answer World}
variable {engine : AgentEngine}
variable {context : AgentContext}
variable {trigger : AgentTrigger}
variable {stepsExecuted failures : Nat}
variable {emittedEvents : List KernelEventRecord}
variable {w w' : World}

theorem Op.Incidental.aside
    {op : Op}
    (hIncidental : op.Incidental) :
    op.Aside := by
  cases op with
  | append record =>
      cases record with
      | executionPlan version =>
          refine ⟨?_, id, trivial⟩
          have hFirst : version.currentStepIndex = 0 :=
            hIncidental
          simp [Op.startsStep, hFirst]
      | approvalResolution _ => exact hIncidental.elim
      | pendingApproval _ => exact hIncidental.elim
      | toolResult _ => exact hIncidental.elim
      | toolExecutionGraph _ => exact hIncidental.elim
      | toolNodeCheckpoint _ => exact hIncidental.elim
      | _ => exact ⟨rfl, id, trivial⟩
  | generateAction timeoutMs _ =>
      refine ⟨?_, id, trivial⟩
      have hNone : timeoutMs = none := hIncidental
      simp [Op.startsStep, hNone]
  | execute _ _ => exact hIncidental.elim
  | _ => exact ⟨rfl, id, trivial⟩

theorem Op.Quiet.aside
    {op : Op}
    (hQuiet : op.Quiet) :
    op.Aside := by
  cases op with
  | append _ => exact hQuiet.elim
  | generateAction _ _ => exact hQuiet.elim
  | execute _ _ => exact hQuiet.elim
  | _ => exact ⟨rfl, id, trivial⟩

theorem aside_appraisal
    {record : SessionRecord}
    (hAppraisal : IsAppraisal record) :
    (Op.append record).Aside :=
  hAppraisal.isNote.incidental.aside

theorem aside_finish
    {stopReason : StopReason}
    {response detail : Option String}
    {resumeToken : Option ResumeToken} :
    Uses Op.Aside (fun _ => True)
      (finish engine context stopReason response detail
        stepsExecuted resumeToken) :=
  uses_finish (fun _ _ => ⟨rfl, id, trivial⟩)
    ⟨rfl, id, trivial⟩ (fun _ => aside_appraisal)
    fun _ => ⟨rfl, id, trivial⟩

theorem aside_policyOutcome :
    Uses Op.Aside (fun _ => True)
      (policyOutcome engine context stepsExecuted
        failures) := by
  unfold policyOutcome
  refine Uses.bind
    (uses_policyStop (fun _ => ⟨rfl, id, trivial⟩)
      fun _ => ⟨rfl, id, trivial⟩) ?_
  intro stop _
  cases stop with
  | none => trivial
  | some stop => exact Uses.bind aside_finish fun _ _ => trivial

/- The single step is taken before anything is executed. -/
theorem goesOn_performSingleStep :
    GoesOn
      (performSingleStep engine context trigger stepsExecuted
        failures emittedEvents) := by
  unfold performSingleStep
  split
  · apply Leads.arrived
    rintro op k ⟨⟩
    simp [Op.startsStep, ExecutionPlanRecord.next]
  · refine Leads.bind aside_policyOutcome ?_
    intro stop _
    cases stop with
    | some outcome => exact .pure
    | none =>
        apply Leads.arrived
        rintro op k ⟨⟩
        rfl

end Steps

------------------------------------------------------------
-- Copies On A Calm Host
------------------------------------------------------------

section Copies

variable {engine : AgentEngine}
variable {request : ProcessRequest}
variable {snapshot : SessionSnapshot}
variable {events : List KernelEvent}
variable {base w : World}

theorem not_storeFails_calm (w : World) :
    ¬StoreFails calmHost w := by
  intro hFails
  rcases hFails with ⟨op, a, hAllowed, hAnswer⟩
  exact hAnswer hAllowed.2.storeAnswered

theorem OnHost.calm : OnHost calmHost where
  next := rfl
  allowed := fun _ _ _ hAllowed => hAllowed.1

/- A program that ends with a copy of the ledger. -/
abbrev Copying
    (p : EngineM SessionSnapshot)
    (w : World) :
    Prop :=
  Safe calmHost (fun _ op => op.Incidental)
    (fun snapshot w' => snapshot.records = w'.ledger)
    (fun _ _ => False) p w

theorem copying_refreshSnapshot :
    Copying (refreshSnapshot snapshot) w := by
  unfold refreshSnapshot Copying
  rw [Safe.bind_iff]
  apply OnHost.calm.safe_loadSession trivial
  · rfl
  · intro error hFails
    exact absurd hFails.storeFails (not_storeFails_calm w)

/- A summary is asked for before anything is appended. -/
theorem copying_summarizeIfLong
    (hCopy : snapshot.records = w.ledger) :
    Copying (summarizeIfLong engine request snapshot) w := by
  unfold summarizeIfLong Copying
  split
  · have hSummary :
        Safe calmHost (fun _ op => op.Incidental)
          (fun _ w' => w'.ledger = w.ledger)
          (fun _ _ => False)
          (summarizeHistory engine snapshot request.policy
            request.trigger) w := by
      unfold summarizeHistory
      rw [Safe.bind_iff, safe_perform]
      refine ⟨rfl, ?_⟩
      intro answer _
      split
      · rw [Safe.bind_iff]
        apply OnHost.calm.safe_newUuid trivial
        intro uuid _
        rfl
      · rfl
    refine Safe.bind hSummary ?_
    intro summary w' hSame
    cases summary with
    | none =>
        show snapshot.records = w'.ledger
        rw [hSame]
        exact hCopy
    | some summary =>
        dsimp only
        rw [Safe.bind_iff]
        apply OnHost.calm.safe_append trivial
        · exact copying_refreshSnapshot
        · intro error _
          exact copying_refreshSnapshot
  · exact hCopy

/- A program that returns on a calm host. -/
abbrev Taking
    {α : Type}
    (p : EngineM α)
    (w : World) :
    Prop :=
  Safe calmHost (fun _ op => op.Incidental)
    (fun _ _ => True) (fun _ _ => False) p w

theorem taking_appendPlannedEvents :
    Taking (appendPlannedEvents events) w := by
  induction events generalizing w with
  | nil => trivial
  | cons event rest ih =>
      unfold appendPlannedEvents Taking
      rw [Safe.bind_iff]
      apply OnHost.calm.safe_newUuid trivial
      intro uuid _
      rw [Safe.bind_iff]
      apply OnHost.calm.safe_append trivial
      · exact ih
      · intro error _
        exact ih

theorem taking_appendProposedPlan
    {plan : Option ExecutionPlan} :
    Taking (appendProposedPlan plan) w := by
  cases plan with
  | none => trivial
  | some plan =>
      unfold appendProposedPlan Taking
      rw [Safe.bind_iff]
      apply OnHost.calm.safe_newUuid trivial
      intro uuid _
      rw [Safe.bind_iff]
      apply OnHost.calm.safe_append rfl trivial
      intro error _
      trivial

theorem copying_runPlanner
    (hCopy : snapshot.records = w.ledger) :
    Copying (runPlanner engine request snapshot) w := by
  unfold runPlanner Copying
  split
  · rw [Safe.bind_iff]
    apply OnHost.calm.safe_quiet (.plan _ _) trivial nofun
      trivial
    intro output _
    dsimp only
    by_cases hChanged :
        (!output.events.isEmpty ||
          output.proposedPlan.isSome) = true
    · refine Safe.bind taking_appendPlannedEvents ?_
      intro _ w' _
      refine Safe.bind taking_appendProposedPlan ?_
      intro _ w'' _
      rw [if_pos hChanged]
      refine Safe.bind copying_refreshSnapshot ?_
      intro refreshed v hRefreshed
      exact copying_summarizeIfLong hRefreshed
    · -- a planner that answers with nothing appends nothing
      rw [Bool.or_eq_true, not_or] at hChanged
      have hEvents : output.events = [] := by
        simpa using hChanged.1
      have hPlan : output.proposedPlan = none := by
        simpa using hChanged.2
      rw [hEvents, hPlan]
      exact copying_summarizeIfLong hCopy
  · exact hCopy

/- What incidental requests append is marginal. -/
theorem safe_marginal
    {α : Type}
    {P : World → Op → Prop}
    {Q : α → World → Prop}
    {p : EngineM α}
    (hGrown : Grown IsMarginal base w)
    (hSafe :
      Safe calmHost (fun _ op => op.Incidental) Q
        (fun _ _ => False) p w)
    (hP : ∀ w op, op.Incidental → P w op) :
    Safe calmHost P
      (fun a w' => Q a w' ∧ Grown IsMarginal base w')
      (fun _ _ => False) p w := by
  refine Safe.mono (fun w op h => hP w op h.1)
    (fun _ _ h => h) (fun _ _ h => h.1)
    (hSafe.frame (I := Grown IsMarginal base) ?_ hGrown)
  intro v op a hBase hIncidental _
  refine hBase.trans (.next ?_)
  intro record hAppend
  subst hAppend
  exact hIncidental.aside.marginal

/- A copy of the ledger keeps up with the kernel's events. -/
theorem calm_persistKernelEvents
    {events : List KernelEventRecord}
    {context : AgentContext}
    (hCopy : context.records = w.ledger) :
    Safe calmHost (fun _ op => op.Incidental)
      (fun context' w' =>
        context'.records = w'.ledger ∧
          context'.metadata = context.metadata)
      (fun _ _ => False)
      (persistKernelEvents events context) w := by
  induction events generalizing context w with
  | nil => exact ⟨hCopy, rfl⟩
  | cons event rest ih =>
      unfold persistKernelEvents appendAndPush
      rw [Program.bind_assoc, Safe.bind_iff]
      apply OnHost.calm.safe_appendOrFail trivial
      · have hPushed :
            (context.push (.kernelEvent event)).records =
              (w.append (.kernelEvent event)).ledger := by
          show context.records ++ [.kernelEvent event] =
            w.ledger ++ [.kernelEvent event]
          rw [hCopy]
        exact ih hPushed
      · intro error hFails
        exact not_storeFails_calm w hFails

end Copies

------------------------------------------------------------
-- Up To The Approval
------------------------------------------------------------

section Triggers

variable {engine : AgentEngine}
variable {request : ProcessRequest}
variable {token : ResumeToken}
variable {decision : ApprovalDecision}
variable {metadata : Json}
variable {triggerId : String}
variable {snapshot : SessionSnapshot}
variable {P : World → Op → Prop}
variable {T : EngineM AdvanceResult → World → Prop}
variable {base w : World}

/-
  The approval of a trigger is taken up with a copy of the
  ledger, to which marginal records have been added.
-/
def TakesApproval
    (engine : AgentEngine)
    (P : World → Op → Prop)
    (T : EngineM AdvanceResult → World → Prop)
    (trigger : AgentTrigger)
    (triggerId : String)
    (token : ResumeToken)
    (decision : ApprovalDecision)
    (metadata : Json)
    (base : World) :
    Prop :=
  ∀ context steps failures events v,
    context.records = v.ledger →
    context.metadata.triggerId = triggerId →
    Grown IsMarginal base v →
      HandsOver calmHost P T
        (approvalStep engine context trigger token decision
          metadata steps failures events) v

theorem handsOver_triggerStep
    (hTrigger :
      request.trigger = .approval token decision metadata)
    (hP : ∀ w op, op.Aside → P w op)
    (hTakes : TakesApproval engine P T request.trigger triggerId
      token decision metadata base)
    (hGrown : Grown IsMarginal base w)
    (hCopy : snapshot.records = w.ledger) :
    HandsOver calmHost P T
      (triggerStep engine request triggerId snapshot) w := by
  unfold triggerStep
  dsimp only
  have hEntered :
      (triggerContext request triggerId snapshot).records =
        w.ledger :=
    hCopy
  refine HandsOver.bind (safe_marginal hGrown
    (calm_persistKernelEvents hEntered)
    fun w op hIncidental => hP w op hIncidental.aside) ?_
  rintro context v ⟨⟨hRecords, hMetadata⟩, hLater⟩
  have hId : context.metadata.triggerId = triggerId := by
    rw [hMetadata]
    rfl
  have hApproval := hTakes context
    (currentStepCount snapshot.records)
    (currentConsecutiveToolFailureSteps snapshot.records)
    (deriveTriggerKernelEvents triggerId request.trigger)
    v hRecords hId hLater
  split
  · rename_i hMatch
    rw [hTrigger] at hMatch
    cases hMatch
    exact hApproval
  · rename_i hOther
    exact absurd hTrigger (hOther token decision metadata)

theorem handsOver_processTrigger
    {trigger : TriggerRecord}
    (hTrigger :
      request.trigger = .approval token decision metadata)
    (hP : ∀ w op, op.Aside → P w op)
    (hTakes : TakesApproval engine P T request.trigger
      trigger.triggerId token decision metadata base)
    (hGrown : Grown IsMarginal base w) :
    HandsOver calmHost P T
      (processTrigger engine request trigger) w := by
  have hIncidental : ∀ w op, op.Incidental → P w op :=
    fun w op h => hP w op h.aside
  have hRest : ∀ (snapshot : SessionSnapshot) (v : World),
      Grown IsMarginal base v →
      HandsOver calmHost P T
        (refreshSnapshot snapshot >>= fun snapshot =>
          runPlanner engine request snapshot >>=
            fun snapshot =>
              triggerStep engine request trigger.triggerId
                snapshot) v := by
    intro snapshot v hGrown
    refine HandsOver.bind (safe_marginal hGrown
      copying_refreshSnapshot hIncidental) ?_
    rintro refreshed v' ⟨hCopy, hGrown⟩
    refine HandsOver.bind (safe_marginal hGrown
      (copying_runPlanner hCopy) hIncidental) ?_
    rintro planned v'' ⟨hCopy, hGrown⟩
    exact handsOver_triggerStep hTrigger hP hTakes hGrown hCopy
  unfold processTrigger
  have hLoad :
      Safe calmHost P
        (fun r w' => (∃ snapshot, r = .ok snapshot) ∧ w' = w)
        (fun _ _ => False) (loadTriggerSnapshot trigger) w := by
    unfold loadTriggerSnapshot
    rw [Safe.bind_iff]
    apply OnHost.calm.safe_quiet .getProjection trivial nofun
      (hP _ _ (Op.Quiet.aside trivial))
    intro cached _
    cases cached with
    | some cached => exact ⟨⟨_, rfl⟩, rfl⟩
    | none =>
        apply OnHost.calm.safe_loadSession
          (hP _ _ (Op.Quiet.aside trivial))
        · exact ⟨⟨_, rfl⟩, rfl⟩
        · intro error hFails
          exact absurd hFails.storeFails
            (not_storeFails_calm w)
  refine HandsOver.bind hLoad ?_
  rintro loaded w' ⟨⟨snapshot, hLoaded⟩, hSame⟩
  subst hLoaded hSame
  dsimp only
  refine HandsOver.bind (Q := fun _ v => Grown IsMarginal base v)
    ?_ ?_
  · apply OnHost.calm.safe_append
      (hP _ _ ⟨rfl, id, by trivial⟩)
    · exact hGrown.trans ⟨[_], rfl, by simp [IsMarginal]⟩
    · intro error hFails
      exact absurd hFails (not_storeFails_calm _)
  · intro _ v hGrown
    exact hRest snapshot v hGrown

/- A fresh approval is taken up after its trigger. -/
theorem handsOver_advanceTrigger
    (hTrigger :
      request.trigger = .approval token decision metadata)
    (hNew : priorOutcome w.ledger request = none)
    (hP : ∀ w op, op.Aside → P w op)
    (hTakes : ∀ triggerId, triggerId ∉ w.issued →
      TakesApproval engine P T request.trigger triggerId
        token decision metadata w) :
    HandsOver calmHost P T
      (advanceTrigger engine request) w := by
  unfold advanceTrigger
  refine HandsOver.bind
    (Q := fun triggerId v =>
      triggerId ∉ w.issued ∧ v.ledger = w.ledger) ?_ ?_
  · apply OnHost.calm.safe_newUuid
      (hP _ _ (Op.Quiet.aside trivial))
    intro triggerId hFresh
    exact ⟨hFresh, rfl⟩
  rintro triggerId v ⟨hFresh, hLedger⟩
  refine HandsOver.bind
    (Q := fun found v' => found = none ∧ v'.ledger = w.ledger)
    ?_ ?_
  · apply OnHost.calm.safe_findPriorOutcome
      (fun key => hP _ _ (Op.Quiet.aside trivial))
    · rw [hLedger]
      exact ⟨hNew, rfl⟩
    · intro hFails
      exact absurd hFails (not_storeFails_calm _)
  rintro found v' ⟨hFound, hLedger'⟩
  subst hFound
  dsimp only
  refine HandsOver.bind
    (Q := fun r v => r = .ok () ∧ Grown IsMarginal w v) ?_ ?_
  · apply OnHost.calm.safe_append
      (hP _ _ ⟨rfl, id, by trivial⟩)
    · refine ⟨rfl, [.trigger (request.record triggerId)], ?_,
        by simp [IsMarginal]⟩
      rw [World.append_ledger, hLedger']
      rfl
    · intro error hFails
      exact absurd hFails (not_storeFails_calm _)
  rintro stored v'' ⟨hStored, hGrown⟩
  subst hStored
  have hApproval := hTakes triggerId hFresh
  exact handsOver_processTrigger hTrigger hP hApproval hGrown

end Triggers

------------------------------------------------------------
-- Advances
------------------------------------------------------------

/-
  Up to its step the store answers the advance and nothing
  panics, and it is not stopped before.
-/
structure Advance.Proceeds (t : Advance) : Prop where
  calm : ∀ s ∈ beforeStep t.steps, Calm s.op s.answer
  reached :
    t.result = none → ∃ s ∈ t.steps, s.op.startsStep = true

theorem Advance.proceeds_of_calm
    {t : Advance}
    (hRuns : t.Runs calmHost)
    (hDone : t.result.isSome = true) :
    t.Proceeds where
  calm := fun s hMem => (hRuns.allowed s
    (List.takeWhile_subset _ hMem)).2
  reached := by
    intro hNone
    rw [hNone] at hDone
    cases hDone

/- The program an advance is left to at its step. -/
theorem Advance.handsOver
    {t : Advance}
    {P : Op → Prop}
    {T : EngineM AdvanceResult → World → Prop}
    (hRuns : t.Runs host)
    (hProceeds : t.Proceeds)
    (hHands : HandsOver calmHost (fun _ op => P op) T
      (advance t.engine t.request) t.before)
    (hBefore : ∀ op, P op → op.startsStep = false)
    (hTakes : ∀ p w, T p w → TakesStep p) :
    ∃ late tail v,
      T tail v ∧ Exec host v tail late t.after t.result ∧
        v.ledger =
          t.before.ledger ++ storedIn (beforeStep t.steps) ∧
        ∀ s ∈ beforeStep t.steps, P s.op := by
  have hWaits : ∀ {s : Step Op Answer World}, P s.op →
      (!s.op.startsStep) = true := by
    intro s hP
    rw [hBefore s.op hP]
    rfl
  rcases hHands.exec (D := Op.startsStep)
      (fun _ op hP => hBefore op hP) hRuns hProceeds.calm with
    ⟨hStopped, hAll⟩ |
    ⟨early, late, tail, v, hSteps, hAll, hEarly, hTail, hLate⟩
  · rcases hProceeds.reached hStopped with ⟨s, hMem, hStarts⟩
    have hNot := hBefore s.op (hAll s hMem)
    rw [hStarts] at hNot
    cases hNot
  · have hLast := (hTakes _ _ hTail).beforeStep_eq hLate
    have hSplit : beforeStep t.steps = early := by
      unfold beforeStep at hLast ⊢
      rw [hSteps, List.takeWhile_append_of_pos
        fun s hMem => hWaits (hAll s hMem), hLast,
        List.append_nil]
    rw [hSplit]
    exact ⟨late, tail, v, hTail, hLate, exec_ledger rfl hEarly,
      hAll⟩

/- A request whose key has an outcome is only answered. -/
def Advance.IsReplay (t : Advance) : Prop :=
  ∃ request, t.request = .trigger request ∧
    priorOutcome t.before.ledger request ≠ none

theorem handsOver_replay
    {engine : AgentEngine}
    {request : ProcessRequest}
    {w : World}
    (hPrior : priorOutcome w.ledger request ≠ none) :
    HandsOver calmHost (fun _ op => op.Aside)
      (fun p v => (∃ result, p = .pure result) ∧
        v.ledger = w.ledger)
      (advanceTrigger engine request) w := by
  unfold advanceTrigger
  refine HandsOver.bind
    (Q := fun _ v => v.ledger = w.ledger) ?_ ?_
  · apply OnHost.calm.safe_newUuid
      (Op.Quiet.aside (by trivial))
    intro triggerId _
    rfl
  intro triggerId v hLedger
  refine HandsOver.bind
    (Q := fun found v' => found ≠ none ∧ v'.ledger = w.ledger)
    ?_ ?_
  · apply OnHost.calm.safe_findPriorOutcome
      (fun _ => Op.Quiet.aside (by trivial))
    · rw [hLedger]
      exact ⟨hPrior, rfl⟩
    · intro hFails
      exact absurd hFails (not_storeFails_calm _)
  rintro found v' ⟨hFound, hLedger'⟩
  cases found with
  | none => exact absurd rfl hFound
  | some prior => exact ⟨⟨_, rfl⟩, hLedger'⟩

/- A replay records nothing and executes nothing. -/
theorem Advance.IsReplay.quiet
    {t : Advance}
    (hReplay : t.IsReplay)
    (hRuns : t.Runs host)
    (hProceeds : t.Proceeds) :
    t.after.ledger = t.before.ledger ∧ t.resumed = [] ∧
      ∀ s ∈ beforeStep t.steps, s.op.Aside := by
  rcases hReplay with ⟨request, hRequest, hPrior⟩
  have hHands :
      HandsOver calmHost (fun _ op => op.Aside)
        (fun p v => (∃ result, p = .pure result) ∧
          v.ledger = t.before.ledger)
        (advance t.engine t.request) t.before := by
    rw [hRequest]
    exact handsOver_replay hPrior
  have hEnds : ∀ (p : EngineM AdvanceResult) (v : World),
      (∃ result, p = .pure result) ∧
        v.ledger = t.before.ledger → TakesStep p := by
    rintro p v ⟨⟨result, hPure⟩, _⟩
    rw [hPure]
    exact takesStep_pure result
  rcases t.handsOver hRuns hProceeds hHands
      (fun _ hAside => hAside.waits) hEnds with
    ⟨late, tail, v, ⟨⟨result, hPure⟩, hSame⟩, hLate,
      hLedger, hAside⟩
  have hNothing : storedIn (beforeStep t.steps) = [] := by
    rw [hSame] at hLedger
    exact List.self_eq_append_right.mp hLedger
  subst hPure
  refine ⟨?_, ?_, hAside⟩
  · rw [(hLate.of_pure).2.1]
    exact hSame
  · unfold Advance.resumed
    rw [hNothing]
    rfl

end RainEngine
