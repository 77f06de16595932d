import RainEngine.Advances.Footprint
import RainEngine.Approvals.Clearance
import RainEngine.Batches.Completion
import RainEngine.Improvement.Endings
import RainEngine.Sessions.Loops

/-
  This file proves that the loop that runs a request until it
  has an outcome returns, on an engine without a planner and a
  session without execution plans. The loop has no counter of
  its own: an advance that leaves the run open has stored a
  decision, which the next continuation counts.

  Key definitions include:
    * `SessionRecord.isOrdinary`
    * `Spends`
    * `SpendsIf`
    * `Opened`

  Key theorems include:
    * `spending_performSingleStep`
    * `advance_ends`
    * `Advance.opened_trigger`
    * `Advance.opened_continue`
    * `open_loop_counted`
    * `loop_returns`
-/

namespace RainEngine

open Effects

------------------------------------------------------------
-- Records Of An Open Run
------------------------------------------------------------

/- Neither an outcome nor a tuning nor a plan. -/
def SessionRecord.isOrdinary : SessionRecord → Bool
| .outcome _ => false
| .policyTuning _ => false
| .executionPlan _ => false
| _ => true

/- The request appends ordinary records only. -/
def Op.Ordinary (op : Op) : Prop :=
  ∀ record, op = .append record → record.isOrdinary = true

/- A decision of the provider has been stored. -/
def DecisionStored (trace : HostTrace) : Prop :=
  ∃ decision : ModelDecisionRecord,
    (⟨.append (.modelDecision decision), .ok ()⟩ :
      Exchange Answer) ∈ trace

/- What leaves a run open: ordinary records, a decision. -/
structure Spends (trace : HostTrace) : Prop where
  ordinary : ∀ x ∈ trace, x.1.Ordinary
  decided : DecisionStored trace

/- A part that leaves the run open is ordinary. -/
def OpenEnd
    (trace : HostTrace)
    (result : AdvanceResult) :
    Prop :=
  result.outcome = none → ∀ x ∈ trace, x.1.Ordinary

/-
  A step that leaves the run open has taken a decision, which
  it may do under a condition only.
-/
def SpendsIf
    (allowed : Prop)
    (trace : HostTrace)
    (result : AdvanceResult) :
    Prop :=
  result.outcome = none → allowed ∧ Spends trace

abbrev Opening (p : EngineM AdvanceResult) : Prop :=
  Yields (fun _ => True) OpenEnd p

abbrev Spending
    (allowed : Prop)
    (p : EngineM AdvanceResult) :
    Prop :=
  Yields (fun _ => True) (SpendsIf allowed) p

/- No plan is among the records. -/
def Unplanned (records : List SessionRecord) : Prop :=
  ∀ plan, .executionPlan plan ∉ records

section Parts

variable {engine : AgentEngine}
variable {context : AgentContext}
variable {trigger : AgentTrigger}
variable {allowed : Prop}
variable {stepsExecuted failures : Nat}
variable {emittedEvents : List KernelEventRecord}

theorem ordinary_append
    {record : SessionRecord}
    (hOrdinary : record.isOrdinary = true) :
    (Op.append record).Ordinary := by
  intro other hSame
  cases hSame
  exact hOrdinary

theorem ordinary_silent
    {op : Op}
    (hSilent : op.Silent) :
    op.Ordinary := by
  intro record hSame
  subst hSame
  exact hSilent.elim

theorem ordinary_newUuid :
    Uses Op.Ordinary (fun _ => True) newUuid :=
  uses_newUuid (ordinary_silent trivial)

theorem ordinary_appendAndPush
    {record : SessionRecord}
    (hOrdinary : record.isOrdinary = true) :
    Uses Op.Ordinary (fun _ => True)
      (appendAndPush context record) :=
  Uses.mono (fun _ h => h) (fun _ _ => trivial)
    (uses_appendAndPush (ordinary_append hOrdinary))

theorem ordinary_batch
    {step : Nat}
    {calls : List PlannedSkillCall}
    {approvalOverride : Bool} :
    Uses Op.Ordinary (fun _ => True)
      (executePlannedCalls engine context step calls
        approvalOverride) := by
  refine Uses.mono ?_ (fun _ h => h) uses_batch
  intro op hBatch record hSame
  subst hSame
  cases record <;> first | rfl | exact hBatch.elim

/- An ordinary part may come before the rest. -/
theorem Opening.after
    {α : Type}
    {p : EngineM α}
    {V : α → Prop}
    {f : α → EngineM AdvanceResult}
    (hUses : Uses Op.Ordinary V p)
    (hNext : ∀ a, V a → Opening (f a)) :
    Opening (p >>= f) := by
  apply Yields.bind hUses.yields (fun _ _ => trivial)
  rintro trace a ⟨hTrace, hValue⟩
  refine Yields.mono (fun _ _ => trivial) ?_
    (hNext a hValue)
  intro rest result hOpen hNone x hx
  rcases List.mem_append.mp hx with hEarly | hLate
  · exact hTrace x hEarly
  · exact hOpen hNone x hLate

theorem Opening.of_uses
    {p : EngineM AdvanceResult}
    (hUses : Uses Op.Ordinary (fun _ => True) p) :
    Opening p :=
  Yields.mono (fun _ _ => trivial)
    (fun _ _ h _ => h.1) hUses.yields

/- A part that ends with an outcome. -/
def Ended (p : EngineM AdvanceResult) : Prop :=
  Uses (fun _ => True) (fun result => result.outcome ≠ none) p

theorem Ended.opening
    {p : EngineM AdvanceResult}
    (hEnded : Ended p) :
    Opening p :=
  Yields.mono (fun _ _ => trivial)
    (fun _ _ h hNone => absurd hNone h.2) hEnded.yields

theorem Ended.spending
    {p : EngineM AdvanceResult}
    (hEnded : Ended p) :
    Spending allowed p :=
  Yields.mono (fun _ _ => trivial)
    (fun _ _ h hNone => absurd hNone h.2) hEnded.yields

theorem ended_finishAdvance
    {stopReason : StopReason}
    {response detail : Option String}
    {resumeToken : Option ResumeToken} :
    Ended
      (finishAdvance engine context stopReason response
        detail stepsExecuted resumeToken emittedEvents) :=
  Uses.bind (Uses.any _) fun _ _ => by
    simp [buildAdvanceResult]

theorem ended_suspend
    {reason : SuspendReason}
    {pendingCalls : List PlannedSkillCall}
    {resumeToken : ResumeToken} :
    Ended
      (suspend engine context stepsExecuted reason
        pendingCalls resumeToken emittedEvents) :=
  Uses.bind (Uses.any _) fun _ _ => ended_finishAdvance

theorem opening_recordMemoryAction
    {event : KernelEvent}
    {source : String}
    {content : Json} :
    Opening
      (recordMemoryAction event source content context
        emittedEvents) := by
  apply Opening.of_uses
  refine Uses.bind ordinary_newUuid ?_
  intro eventId _
  refine Uses.bind (ordinary_appendAndPush rfl) ?_
  intro context' _
  refine Uses.bind ordinary_newUuid ?_
  intro observationEventId _
  refine Uses.bind ordinary_newUuid ?_
  intro observationId _
  exact Uses.bind (ordinary_appendAndPush rfl)
    fun _ _ => trivial

theorem ordinary_runBatch
    {calls : List PlannedSkillCall} :
    Uses Op.Ordinary (fun _ => True)
      (runBatch engine context stepsExecuted calls false) := by
  refine Uses.bind ordinary_batch ?_
  intro execution _
  refine Uses.bind
    (uses_recordResults fun _ => ordinary_append rfl) ?_
  intro recorded _
  trivial

theorem opening_executeCalls
    {calls : List PlannedSkillCall} :
    Opening
      (executeCalls engine context calls stepsExecuted
        emittedEvents) := by
  rw [executeCalls_eq]
  apply Opening.after ordinary_runBatch
  intro ran _
  rcases ran with ⟨execution, recorded⟩
  cases execution with
  | suspended reason pendingCalls resumeToken =>
      exact ended_suspend.opening
  | executed batch =>
      apply Opening.of_uses
      cases recorded <;> trivial

/- An action that leaves the run open is ordinary. -/
theorem opening_executeAction
    {action : AgentAction} :
    Opening
      (executeAction engine context action stepsExecuted
        emittedEvents) := by
  cases action with
  | plan summary candidateActions confidence =>
      apply Opening.of_uses
      refine Uses.bind ordinary_newUuid ?_
      intro deliberationId _
      exact Uses.bind
        (uses_appendOrFail (V := fun _ => True)
          (ordinary_append rfl) trivial)
        fun _ _ => trivial
  | respond content => exact ended_finishAdvance.opening
  | yieldWith reason => exact ended_finishAdvance.opening
  | memorySearch query limit =>
      apply Opening.after (V := fun _ => True)
        (p := Program.perform (Op.listRecords 0 100))
      · exact ⟨ordinary_silent trivial, fun _ => trivial⟩
      · intro page _
        exact opening_recordMemoryAction
  | memoryArchive content => exact opening_recordMemoryAction
  | continueWith _ => exact Opening.of_uses trivial
  | suspend reason pendingCalls resumeToken =>
      exact ended_suspend.opening
  | callSkills calls => exact opening_executeCalls
  | delegate target task correlationId resumeToken =>
      apply Ended.opening
      refine Uses.bind (Uses.any _) ?_
      intro context' _
      refine Uses.bind (Uses.any _) ?_
      intro context'' _
      exact ended_finishAdvance

------------------------------------------------------------
-- Steps
------------------------------------------------------------

/- An ordinary part may come before a step. -/
theorem Spending.after
    {α : Type}
    {p : EngineM α}
    {V : α → Prop}
    {f : α → EngineM AdvanceResult}
    (hUses : Uses Op.Ordinary V p)
    (hNext : ∀ a, V a → Spending allowed (f a)) :
    Spending allowed (p >>= f) := by
  apply Yields.bind hUses.yields (fun _ _ => trivial)
  rintro trace a ⟨hTrace, hValue⟩
  refine Yields.mono (fun _ _ => trivial) ?_
    (hNext a hValue)
  intro rest result hSpends hNone
  rcases hSpends hNone with ⟨hAllowed, hOrdinary, hDecided⟩
  refine ⟨hAllowed, ?_, ?_⟩
  · intro x hx
    rcases List.mem_append.mp hx with hEarly | hLate
    · exact hTrace x hEarly
    · exact hOrdinary x hLate
  · rcases hDecided with ⟨decision, hMem⟩
    exact ⟨decision, List.mem_append_right _ hMem⟩

/- A decision that is followed has been stored. -/
theorem spending_followDecision
    {decision : ProviderDecision}
    (hAllowed : allowed) :
    Spending allowed
      (followDecision engine context decision stepsExecuted
        emittedEvents) := by
  apply Spending.after
    (uses_persistProviderMetadata
      (fun _ => ordinary_append rfl)
      (fun _ => ordinary_append rfl))
  intro context' _
  apply Yields.perform trivial
  intro stored
  cases stored with
  | error error =>
      refine ⟨trivial, ?_⟩
      intro hNone
      cases hNone
  | ok _ =>
      refine Yields.mono (fun _ _ => trivial) ?_
        opening_executeAction
      intro rest result hOpen hNone
      refine ⟨hAllowed, ?_, _, List.mem_cons_self⟩
      intro x hx
      rcases List.mem_cons.mp hx with hHead | hLater
      · rw [hHead]
        exact ordinary_append rfl
      · exact hOpen hNone x hLater

theorem spending_askProvider
    (hAllowed : allowed) :
    Spending allowed
      (askProvider engine context trigger stepsExecuted
        emittedEvents) := by
  apply Spending.after (V := fun _ => True)
    (p := Program.perform _)
  · exact ⟨ordinary_silent trivial, fun _ => trivial⟩
  · intro answer _
    cases answer with
    | none => exact ended_finishAdvance.spending
    | some answer =>
        cases answer with
        | error error => exact ended_finishAdvance.spending
        | ok decision => exact spending_followDecision hAllowed

theorem duePlanStep_unplanned
    {records : List SessionRecord}
    (hUnplanned : Unplanned records) :
    duePlanStep records = none := by
  have hNone : activeExecutionPlan records = none := by
    unfold activeExecutionPlan
    rw [List.findSomeRev?_eq_findSome?_reverse,
      List.findSome?_eq_none_iff]
    intro record hMem
    cases record with
    | executionPlan plan =>
        exact (hUnplanned plan (List.mem_reverse.mp hMem)).elim
    | _ => rfl
  unfold duePlanStep
  rw [hNone]
  rfl

/-
  A step without a due plan step that leaves the run open has
  stored a decision below the step limit.
-/
theorem spending_performSingleStep
    (hUnplanned : Unplanned context.records) :
    Spending
      (stepsExecuted < context.metadata.policy.maxSteps)
      (performSingleStep engine context trigger
        stepsExecuted failures emittedEvents) := by
  unfold performSingleStep
  rw [duePlanStep_unplanned hUnplanned]
  dsimp only
  unfold policyOutcome
  rw [Program.bind_assoc]
  apply Spending.after
    (uses_policyStop (fun _ => ordinary_silent trivial)
      (fun _ => ordinary_silent trivial))
  intro stop hVerdict
  cases stop with
  | none =>
      exact spending_askProvider (hVerdict.goesOn rfl)
  | some stop =>
      apply Ended.spending
      rcases stop with ⟨stopReason, detail⟩
      dsimp only
      rw [Program.bind_assoc]
      exact ended_finishAdvance

theorem Unplanned.results
    {records : List SessionRecord}
    {results : List ToolResultRecord}
    (hUnplanned : Unplanned records) :
    Unplanned
      (records ++ results.map SessionRecord.toolResult) := by
  intro plan hMem
  rcases List.mem_append.mp hMem with hOld | hNew
  · exact hUnplanned plan hOld
  · rcases List.mem_map.mp hNew with ⟨result, _, hSame⟩
    cases hSame

/- A continuation that leaves the run open spends a step. -/
theorem spending_continueTrigger
    {request : ContinueRequest}
    {record : TriggerRecord}
    {snapshot : SessionSnapshot}
    (hUnplanned : Unplanned snapshot.records) :
    Spending
      (currentStepCount snapshot.records <
        (effectivePolicy request.policy
          snapshot.records).maxSteps)
      (continueTrigger engine request record snapshot) := by
  unfold continueTrigger
  dsimp only
  split
  · apply Spending.after ordinary_batch
    intro execution _
    cases execution with
    | suspended _ _ _ => exact ended_finishAdvance.spending
    | executed batch =>
        apply Spending.after
          (uses_recordResultsOrFail
            fun _ => ordinary_append rfl)
        rintro context' ⟨hRecords, hMetadata⟩
        have hPolicy :
            effectivePolicy request.policy snapshot.records =
              context'.metadata.policy := by
          rw [hMetadata]
          rfl
        rw [hPolicy]
        apply spending_performSingleStep
        rw [hRecords]
        exact hUnplanned.results
  · have hStart :
        Unplanned
          (continueContext request record snapshot).records :=
      hUnplanned
    exact spending_performSingleStep hStart

theorem Spending.weaken
    {p : EngineM AdvanceResult}
    (hSpending : Spending allowed p) :
    Spending True p :=
  Yields.mono (fun _ h => h)
    (fun _ _ h hNone => ⟨trivial, (h hNone).2⟩) hSpending

theorem spending_approvalStep
    {token : ResumeToken}
    {decision : ApprovalDecision}
    {metadata : Json}
    (hUnplanned : Unplanned context.records) :
    Spending True
      (approvalStep engine context trigger token decision
        metadata stepsExecuted failures emittedEvents) := by
  have hFind : Uses Op.Ordinary (fun _ => True)
      (findApprovalTarget context token decision) := by
    refine ⟨ordinary_silent trivial, ?_⟩
    intro answer
    cases answer with
    | error error => trivial
    | ok found => cases found <;> trivial
  apply Spending.after hFind
  intro found _
  cases found with
  | none => exact ended_finishAdvance.spending
  | some target =>
      have hResolution : Uses Op.Ordinary (fun _ => True)
          (recordResolution target metadata) := by
        unfold recordResolution
        split
        · trivial
        · exact uses_appendOrFail (ordinary_append rfl) trivial
      have hResume : Uses Op.Ordinary (fun _ => True)
          (resumeCalls engine context target) := by
        unfold resumeCalls
        cases target.decision with
        | approved => exact ordinary_batch
        | rejected => trivial
      apply Spending.after hResolution
      intro _ _
      apply Spending.after hResume
      intro execution _
      cases execution with
      | suspended _ _ _ => exact ended_finishAdvance.spending
      | executed batch =>
          apply Spending.after
            (uses_recordResultsOrFail
              fun _ => ordinary_append rfl)
          rintro context' ⟨hRecords, _⟩
          apply Spending.weaken
          apply spending_performSingleStep
          rw [hRecords]
          exact hUnplanned.results

/- So does the step of a trigger. -/
theorem spending_triggerStep
    {request : ProcessRequest}
    {triggerId : String}
    {snapshot : SessionSnapshot}
    (hUnplanned : Unplanned snapshot.records) :
    Spending True
      (triggerStep engine request triggerId snapshot) := by
  unfold triggerStep
  apply Spending.after
    (uses_persistKernelEvents fun _ => ordinary_append rfl)
  rintro context' ⟨hRecords, _⟩
  have hNone : Unplanned context'.records := by
    rw [hRecords]
    intro plan hMem
    rcases List.mem_append.mp hMem with hOld | hNew
    · exact hUnplanned plan hOld
    · rcases List.mem_map.mp hNew with ⟨event, _, hSame⟩
      cases hSame
  dsimp only
  split
  · exact spending_approvalStep hNone
  · exact (spending_performSingleStep hNone).weaken

end Parts

------------------------------------------------------------
-- Open Advances
------------------------------------------------------------

/- What an advance that leaves a run open adds to a ledger. -/
def Opened (records more : List SessionRecord) : Prop :=
  ∃ added, more = records ++ added ∧
    (∀ record ∈ added, record.isOrdinary = true) ∧
      ∃ decision, .modelDecision decision ∈ added

section Open

variable {engine : AgentEngine}
variable {w w' : World}
variable {records more added : List SessionRecord}

/- The records of a trace without outcome. -/
theorem Spends.opened
    {α : Type}
    {p : EngineM α}
    {steps : List (Step Op Answer World)}
    {r : Option (Except EngineError α)}
    (hExec : Exec host w p steps w' r)
    (hSpends : Spends (steps.map Step.exchange)) :
    Opened w.ledger w'.ledger := by
  refine ⟨storedIn steps,
    exec_ledger OnHost.host.next hExec, ?_, ?_⟩
  · intro record hMem
    rcases mem_storedIn hMem with ⟨s, hStep, hOp⟩
    exact hSpends.ordinary s.exchange
      (List.mem_map_of_mem hStep) record hOp
  · rcases hSpends.decided with ⟨decision, hMem⟩
    rcases List.mem_map.mp hMem with ⟨s, hStep, hSame⟩
    refine ⟨decision, List.mem_filterMap.mpr ⟨s, hStep, ?_⟩⟩
    rcases s with ⟨v, op, a⟩
    cases hSame
    rfl

theorem Opened.after
    {early : List SessionRecord}
    (hEarly : ∀ record ∈ early, record.isOrdinary = true)
    (hOpened : Opened (records ++ early) more) :
    Opened records more := by
  rcases hOpened with
    ⟨added, hMore, hOrdinary, decision, hDecision⟩
  refine ⟨early ++ added, ?_, ?_, decision,
    List.mem_append_right _ hDecision⟩
  · rw [hMore, List.append_assoc]
  · intro record hMem
    rcases List.mem_append.mp hMem with hOld | hNew
    · exact hEarly record hOld
    · exact hOrdinary record hNew

/- An open advance is counted as a step at least. -/
theorem Opened.currentStepCount_lt
    (hOpened : Opened records more) :
    currentStepCount records < currentStepCount more := by
  rcases hOpened with
    ⟨added, hMore, hOrdinary, decision, hDecision⟩
  have hOpen : ∀ record ∈ added, record.isOutcome = false := by
    intro record hMem
    have hKind := hOrdinary record hMem
    cases record <;> first | rfl | cases hKind
  rw [hMore]
  unfold currentStepCount
  rw [sinceLastOutcome_append_list hOpen, List.filter_append,
    List.length_append]
  apply Nat.lt_add_of_pos_right
  exact List.length_pos_of_mem
    (List.mem_filter.mpr ⟨hDecision, rfl⟩)

theorem Opened.unplanned
    (hOpened : Opened records more)
    (hUnplanned : Unplanned records) :
    Unplanned more := by
  rcases hOpened with ⟨added, hMore, hOrdinary, _⟩
  rw [hMore]
  intro plan hMem
  rcases List.mem_append.mp hMem with hOld | hNew
  · exact hUnplanned plan hOld
  · cases hOrdinary _ hNew

/- The policy in force is that of the start. -/
theorem Opened.effectivePolicy_eq
    {policy : EnginePolicy}
    (hOpened : Opened records more) :
    effectivePolicy policy more =
      effectivePolicy policy records := by
  rcases hOpened with ⟨added, hMore, hOrdinary, _⟩
  unfold effectivePolicy
  rw [hMore, ← activePolicyOverlay_imprints, imprints_append]
  have hNone : imprints added = [] := by
    apply List.filter_eq_nil_iff.mpr
    intro record hMem
    have hKind := hOrdinary record hMem
    cases record <;>
      simp_all [SessionRecord.isImprint,
        SessionRecord.isOrdinary]
  rw [hNone, List.append_nil, activePolicyOverlay_imprints]

------------------------------------------------------------
-- Open Advances On The Host
------------------------------------------------------------

/- What an advance leaves when it returns without outcome. -/
def LeavesOpen
    (w : World)
    (result : AdvanceResult)
    (w' : World) :
    Prop :=
  result.outcome = none → Opened w.ledger w'.ledger

/- The rest of a trigger, once the planner is passed. -/
theorem safe_triggerStep_opened
    {base early : List SessionRecord}
    {request : ProcessRequest}
    {triggerId : String}
    {snapshot : SessionSnapshot}
    (hLedger : w.ledger = base ++ early)
    (hEarly : ∀ record ∈ early, record.isOrdinary = true)
    (hUnplanned : Unplanned snapshot.records) :
    Safe host (fun _ _ => True)
      (fun result w' =>
        result.outcome = none → Opened base w'.ledger)
      (fun _ _ => True)
      (triggerStep engine request triggerId snapshot) w := by
  refine Safe.mono (fun _ _ h => h) ?_ (fun _ _ h => h)
    (safe_exec _ w)
  rintro result w' ⟨steps, hExec⟩ hOpen
  have hSpends :=
    ((spending_triggerStep hUnplanned).exec hExec).2 result
      rfl hOpen
  have hOpened := Spends.opened hExec hSpends.2
  rw [hLedger] at hOpened
  exact hOpened.after hEarly

/- A recorded trigger that leaves the run open. -/
theorem safe_processTrigger_opened
    {base early : List SessionRecord}
    {request : ProcessRequest}
    {trigger : TriggerRecord}
    (hPlanner : engine.hasPlanner = false)
    (hLedger : w.ledger = base ++ early)
    (hEarly : ∀ record ∈ early, record.isOrdinary = true)
    (hUnplanned : Unplanned w.ledger)
    (hCached : ∀ cached, w.cache = some cached →
      Unplanned cached.records) :
    Safe host (fun _ _ => True)
      (fun result w' =>
        result.outcome = none → Opened base w'.ledger)
      (fun _ _ => True)
      (processTrigger engine request trigger) w := by
  have hRest : ∀ (snapshot : SessionSnapshot) (w' : World)
      (added : List SessionRecord),
      w'.ledger = base ++ added →
      (∀ record ∈ added, record.isOrdinary = true) →
      Unplanned w'.ledger →
      Unplanned snapshot.records →
        Safe host (fun _ _ => True)
          (fun result w'' =>
            result.outcome = none → Opened base w''.ledger)
          (fun _ _ => True)
          (refreshSnapshot snapshot >>= fun snapshot =>
            runPlanner engine request snapshot >>=
              fun snapshot =>
                triggerStep engine request trigger.triggerId
                  snapshot) w' := by
    intro snapshot w' added hLedger hAdded hStored hSnapshot
    have hStep : ∀ snapshot : SessionSnapshot,
        Unplanned snapshot.records →
          Safe host (fun _ _ => True)
            (fun result w'' =>
              result.outcome = none →
                Opened base w''.ledger)
            (fun _ _ => True)
            (runPlanner engine request snapshot >>=
              fun snapshot =>
                triggerStep engine request trigger.triggerId
                  snapshot) w' := by
      intro snapshot hSnapshot
      unfold runPlanner
      rw [hPlanner]
      exact safe_triggerStep_opened hLedger hAdded hSnapshot
    unfold refreshSnapshot
    rw [Program.bind_assoc, Safe.bind_iff]
    apply OnHost.host.safe_loadSession trivial
    · exact hStep w'.snapshot hStored
    · intro error _
      exact hStep snapshot hSnapshot
  have hNoted : ∀ snapshot : SessionSnapshot,
      Unplanned snapshot.records →
        Safe host (fun _ _ => True)
          (fun result w' =>
            result.outcome = none → Opened base w'.ledger)
          (fun _ _ => True)
          (append (.triggerIntent
              { triggerId := trigger.triggerId
                intent := classifyTriggerIntent
                  engine.rendering request.trigger }) >>=
            fun _ => refreshSnapshot snapshot >>=
              fun snapshot =>
                runPlanner engine request snapshot >>=
                  fun snapshot =>
                    triggerStep engine request
                      trigger.triggerId snapshot) w := by
    intro snapshot hSnapshot
    rw [Safe.bind_iff]
    apply safe_append trivial
    · apply hRest snapshot _ (early ++ [.triggerIntent _])
      · rw [World.append_ledger, hLedger, List.append_assoc]
      · intro record hMem
        rcases List.mem_append.mp hMem with hOld | hNew
        · exact hEarly record hOld
        · rw [List.mem_singleton.mp hNew]
          rfl
      · intro plan hMem
        rcases List.mem_append.mp hMem with hOld | hNew
        · exact hUnplanned plan hOld
        · cases List.mem_singleton.mp hNew
      · exact hSnapshot
    · intro error
      exact hRest snapshot w early hLedger hEarly hUnplanned
        hSnapshot
  unfold processTrigger loadTriggerSnapshot
  rw [Program.bind_assoc, Safe.bind_iff]
  apply OnHost.host.safe_quiet .getProjection trivial nofun
    trivial
  intro cached hAllowed
  cases cached with
  | some cached =>
      rcases hAllowed with hNone | hSame
      · cases hNone
      · apply hNoted
        intro plan hMem
        rcases List.mem_append.mp hMem with hOld | hNew
        · exact hCached cached hSame.symm plan hOld
        · cases List.mem_singleton.mp hNew
  | none =>
      dsimp only
      rw [Safe.bind_iff]
      apply OnHost.host.safe_loadSession trivial
      · exact hNoted w.snapshot hUnplanned
      · intro error _ hOpen
        cases hOpen

/- A whole trigger that leaves the run open. -/
theorem safe_advanceTrigger_opened
    {request : ProcessRequest}
    (hPlanner : engine.hasPlanner = false)
    (hUnplanned : Unplanned w.ledger)
    (hCached : ∀ cached, w.cache = some cached →
      Unplanned cached.records) :
    Safe host (fun _ _ => True) (LeavesOpen w)
      (fun _ _ => True) (advanceTrigger engine request) w := by
  apply OnHost.host.safe_advanceTrigger trivial
  · intro triggerId _ key
    trivial
  · intro triggerId _ prior _ hOpen
    cases hOpen
  · intro triggerId _ _
    refine ⟨trivial, ?_, ?_⟩
    · intro error _ hOpen
      cases hOpen
    · apply safe_processTrigger_opened hPlanner rfl
      · intro record hMem
        rw [List.mem_singleton.mp hMem]
        rfl
      · intro plan hMem
        rcases List.mem_append.mp hMem with hOld | hNew
        · exact hUnplanned plan hOld
        · cases List.mem_singleton.mp hNew
      · exact hCached

/- A continuation stays below the limit of its policy. -/
theorem safe_advanceContinue_opened
    {request : ContinueRequest}
    (hUnplanned : Unplanned w.ledger) :
    Safe host (fun _ _ => True)
      (fun result w' => result.outcome = none →
        currentStepCount w.ledger <
            (effectivePolicy request.policy
              w.ledger).maxSteps ∧
          Opened w.ledger w'.ledger)
      (fun _ _ => True)
      (advanceContinue engine request) w := by
  apply OnHost.host.safe_advanceContinue trivial
  · intro error _ hOpen
    cases hOpen
  · intro _
    refine ⟨trivial, ?_⟩
    intro triggerId _ hOpen
    cases hOpen
  · intro record _
    refine Safe.mono (fun _ _ h => h) ?_ (fun _ _ h => h)
      (safe_exec _ w)
    rintro result w' ⟨steps, hExec⟩ hOpen
    have hSpends :=
      ((spending_continueTrigger hUnplanned).exec
        hExec).2 result rfl hOpen
    exact ⟨hSpends.1, Spends.opened hExec hSpends.2⟩

end Open

------------------------------------------------------------
-- The End Of An Advance
------------------------------------------------------------

/- No request of an advance runs out of fuel. -/
def fueled : Assertions where
  holds _ _ := True
  request _ op := op ≠ .outOfFuel
  results _ _ _ _ := True
  returned _ _ := True
  thrown _ := True

section Ending

variable {engine : AgentEngine}
variable {w : World}

theorem executePlannedCalls_ends
    {context : AgentContext}
    {step : Nat}
    {calls : List PlannedSkillCall}
    {approvalOverride : Bool} :
    Safe host (fun _ op => op ≠ .outOfFuel)
      (fun _ _ => True) (fun _ _ => True)
      (executePlannedCalls engine context step calls
        approvalOverride) w := by
  by_cases hWaits : Waits engine calls approvalOverride
  · have hYes : (!approvalOverride) = true ∧
        approvalCalls engine calls ≠ [] :=
      ⟨by simp [hWaits.1], hWaits.2⟩
    unfold executePlannedCalls
    rw [if_pos hYes]
    rw [Safe.bind_iff]
    exact safe_newUuid nofun fun _ _ => trivial
  · have hBatch := @runBatch_ends engine context step calls
      approvalOverride w hWaits
    unfold runBatch at hBatch
    rw [Safe.bind_iff] at hBatch
    exact hBatch.mono (fun _ _ h => h) (fun _ _ _ => trivial)
      (fun _ _ h => h)

theorem fueled_rules : Rules host engine fueled where
  quiet := by
    intro stage w op _ hQuiet hFuel
    subst hFuel
    exact hQuiet
  issue := fun _ _ => trivial
  lag := fun _ => trivial
  note := fun _ _ => nofun
  noted := fun _ _ => ⟨trivial, trivial⟩
  fresh := fun _ => trivial
  stale := fun _ _ => trivial
  summarize := fun _ => nofun
  propose := fun _ _ _ _ _ _ => ⟨nofun, trivial⟩
  ask := fun _ => nofun
  planStep := fun _ _ => ⟨nofun, trivial⟩
  await := fun _ _ => ⟨nofun, trivial⟩
  resolve := fun _ _ _ _ => ⟨nofun, trivial⟩
  reject := fun _ => trivial
  batch := by
    intro ready context w step calls override _ _
    refine executePlannedCalls_ends.mono (fun _ _ h => h) ?_
      (fun _ _ h => h)
    intro execution w' _
    cases execution <;> trivial
  result := fun _ => ⟨nofun, trivial⟩
  recorded := fun _ => trivial
  lostResult := fun _ _ => ⟨trivial, trivial⟩
  outcome := fun _ _ _ => ⟨nofun, trivial⟩
  lostOutcome := fun _ _ _ _ => trivial
  project := fun _ _ => ⟨nofun, trivial⟩
  done := fun _ => trivial
  progress := fun _ => trivial
  failed := fun _ _ => trivial
  thrown := fun _ _ => trivial

/- An advance never runs out of fuel. -/
theorem advance_ends
    {request : AdvanceRequest} :
    Ends host fueled (advance engine request) w := by
  have hRules := (@fueled_rules engine).steps .host
  cases request with
  | trigger request =>
      apply OnHost.host.safe_advanceTrigger nofun
      · intros
        exact nofun
      · intros
        trivial
      · intro triggerId _ _
        refine ⟨nofun, fun _ _ => trivial, ?_⟩
        exact hRules.safe_processTrigger .host
          (fun _ _ => trivial) trivial (fun _ _ => trivial)
          (fun _ _ _ => trivial)
  | continueWith request =>
      apply OnHost.host.safe_advanceContinue nofun
      · intros
        trivial
      · intro _
        exact ⟨nofun, fun _ _ => trivial⟩
      · intro trigger _
        exact hRules.safe_continueTrigger .host trivial

end Ending

------------------------------------------------------------
-- Loops
------------------------------------------------------------

/- No plan is stored, and none is hidden in the cache. -/
structure PlanFree (w : World) : Prop where
  ledger : Unplanned w.ledger
  cleared : Cleared (fun _ => False) w

section Loops

variable {t : Advance}
variable {w w' : World}
variable {loop : List Advance}

theorem PlanFree.cached
    (hFree : PlanFree w) :
    ∀ cached, w.cache = some cached →
      Unplanned cached.records := by
  intro cached hCached plan hMem
  rcases hFree.cleared.cached cached hCached _ hMem with
    hOutcome | hLedger
  · cases hOutcome
  · exact hFree.ledger plan hLedger

theorem guards_none
    (engine : AgentEngine) :
    Guards (fun _ => False) engine := by
  intro name hNever
  exact hNever.elim

theorem Advance.of_isOpen
    (hOpen : t.isOpen = true) :
    ∃ result, t.result = some (.ok result) ∧
      result.outcome = none := by
  unfold Advance.isOpen at hOpen
  split at hOpen
  · rename_i result hResult
    exact ⟨result, hResult, Option.isNone_iff_eq_none.mp hOpen⟩
  · cases hOpen

theorem Advance.opened_trigger
    {request : ProcessRequest}
    (hRuns : t.Runs host)
    (hRequest : t.request = .trigger request)
    (hPlanner : t.engine.hasPlanner = false)
    (hFree : PlanFree t.before)
    (hOpen : t.isOpen = true) :
    Opened t.before.ledger t.after.ledger := by
  rcases t.of_isOpen hOpen with ⟨result, hResult, hNone⟩
  unfold Advance.Runs at hRuns
  rw [hRequest] at hRuns
  exact ((safe_advanceTrigger_opened hPlanner hFree.ledger
    hFree.cached).result hRuns).1 result hResult hNone

theorem Advance.opened_continue
    {request : ContinueRequest}
    (hRuns : t.Runs host)
    (hRequest : t.request = .continueWith request)
    (hFree : PlanFree t.before)
    (hOpen : t.isOpen = true) :
    currentStepCount t.before.ledger <
        (effectivePolicy request.policy
          t.before.ledger).maxSteps ∧
      Opened t.before.ledger t.after.ledger := by
  rcases t.of_isOpen hOpen with ⟨result, hResult, hNone⟩
  unfold Advance.Runs at hRuns
  rw [hRequest] at hRuns
  exact ((safe_advanceContinue_opened hFree.ledger).result
    hRuns).1 result hResult hNone

theorem Run.of_nil
    {M : Machine Op Answer World}
    (hRun : Run M w [] w') :
    w = w' := by
  cases hRun
  rfl

/- A run of one advance starts and ends where it does. -/
theorem Run.of_singleton
    {M : Machine Op Answer World}
    (hRun : Run M w [t] w') :
    t.Runs M ∧ t.before = w ∧ t.after = w' := by
  cases hRun with
  | cons hAdvance hRest =>
      exact ⟨hAdvance, rfl, hRest.of_nil⟩

/-
  While every advance of a loop leaves the run open, the
  ledger counts at least as many steps as there were
  advances, and all but the first were below the limit.
-/
theorem open_loop_counted
    {request : ProcessRequest}
    (hLoop : LoopOf request loop)
    (hRun : Run host w loop w')
    (hPlanner : ∀ t ∈ loop, t.engine.hasPlanner = false)
    (hFree : PlanFree w)
    (hOpen : ∀ t ∈ loop, t.isOpen = true) :
    PlanFree w' ∧
      loop.length ≤ currentStepCount w'.ledger ∧
      effectivePolicy request.policy w'.ledger =
        effectivePolicy request.policy w.ledger ∧
      loop.length ≤
        max 1
          (effectivePolicy request.policy w.ledger).maxSteps := by
  induction loop using List.reverseRecOn generalizing w' with
  | nil =>
      cases hRun
      exact ⟨hFree, Nat.zero_le _, rfl, Nat.zero_le _⟩
  | append_singleton done t ih =>
      rcases hRun.of_append with ⟨middle, hDone, hLast⟩
      rcases hLast.of_singleton with ⟨hRuns, hBefore, hAfter⟩
      subst hBefore
      subst hAfter
      rcases ih hLoop.of_snoc hDone
          (fun s hMem => hPlanner s (by simp [hMem]))
          (fun s hMem => hOpen s (by simp [hMem])) with
        ⟨hFreeBefore, hCounted, hPolicy, _⟩
      have hOpenLast := hOpen t (by simp)
      have hPlannerLast := hPlanner t (by simp)
      have hCleared :=
        cleared_advance hRuns (guards_none _)
          hFreeBefore.cleared
      rw [List.length_append, List.length_singleton]
      rcases hLoop.snoc_cases with ⟨hFirst, hRequest⟩ |
        ⟨last, cancelled, _, _, hRequest⟩
      · have hOpened := t.opened_trigger hRuns hRequest
          hPlannerLast hFreeBefore hOpenLast
        have hMore := hOpened.currentStepCount_lt
        subst hFirst
        refine ⟨⟨hOpened.unplanned hFreeBefore.ledger,
          hCleared⟩, ?_, ?_, Nat.le_max_left _ _⟩
        · rw [List.length_nil]
          omega
        · rw [hOpened.effectivePolicy_eq, hPolicy]
      · rcases t.opened_continue hRuns hRequest hFreeBefore
          hOpenLast with ⟨hBelow, hOpened⟩
        have hMore := hOpened.currentStepCount_lt
        refine ⟨⟨hOpened.unplanned hFreeBefore.ledger,
          hCleared⟩, ?_, ?_, ?_⟩
        · omega
        · rw [hOpened.effectivePolicy_eq, hPolicy]
        · have hSame :
              (request.continuation cancelled).policy =
                request.policy :=
            rfl
          rw [hSame, hPolicy] at hBelow
          apply Nat.le_trans _ (Nat.le_max_right _ _)
          omega

/- All advances of a loop but the last one were open. -/
theorem LoopOf.open_before
    {request : ProcessRequest}
    {done : List Advance}
    (hLoop : LoopOf request (done ++ [t])) :
    ∀ s ∈ done, s.isOpen = true := by
  induction done using List.reverseRecOn generalizing t with
  | nil => simp
  | append_singleton done s ih =>
      intro other hMem
      rcases List.mem_append.mp hMem with hEarly | hLast
      · exact ih hLoop.of_snoc other hEarly
      · rw [List.mem_singleton.mp hLast]
        rcases hLoop.snoc_cases with ⟨hNone, _⟩ |
          ⟨last, _, hSome, hOpen, _⟩
        · simp at hNone
        · rw [List.getLast?_concat] at hSome
          cases hSome
          exact hOpen

/- Stopped anywhere, an advance can be run to its end. -/
theorem Advance.completes
    (hRuns : t.Runs host) :
    ∃ more w'' r,
      Exec host t.before (advance t.engine t.request)
        (t.steps ++ more) w'' (some r) := by
  apply Safe.completes _ advance_ends hRuns
  intro w op hFuel
  rcases exists_calm_answer w op hFuel with ⟨a, hAllowed, _⟩
  exact ⟨a, hAllowed⟩

/-
  Without a planner and without stored plans a loop leaves
  the run open at most as often as its policy allows steps,
  and at least once: it has returned after one advance more.
  None of its advances goes on forever.
-/
theorem loop_returns
    {sessionId : String}
    {history loop : List Advance}
    {w w' : World}
    {request : ProcessRequest}
    (hHistory : Run host (World.empty sessionId) history w)
    (hUnplanned : ∀ plan, .executionPlan plan ∉ w.ledger)
    (hPlanner : ∀ t ∈ loop, t.engine.hasPlanner = false)
    (hLoop : LoopOf request loop)
    (hRun : Run host w loop w') :
    (loop.filter Advance.isOpen).length ≤
        max 1
          (effectivePolicy request.policy
            w.ledger).maxSteps ∧
      loop.length ≤
        max 1
          (effectivePolicy request.policy
            w.ledger).maxSteps + 1 ∧
      ∀ t ∈ loop, ∃ more w'' r,
        Exec host t.before (advance t.engine t.request)
          (t.steps ++ more) w'' (some r) := by
  have hCleared : Cleared (fun _ => False) w := by
    refine (hHistory.preserves ?_ (cleared_empty _ _)).2
    intro t _ hRuns hCleared
    exact cleared_advance hRuns (guards_none _) hCleared
  have hEnds : ∀ t ∈ loop, ∃ more w'' r,
      Exec host t.before (advance t.engine t.request)
        (t.steps ++ more) w'' (some r) := by
    intro t hMem
    exact t.completes (hRun.runs t hMem)
  cases loop using List.reverseRecOn with
  | nil => exact ⟨Nat.zero_le _, Nat.zero_le _, hEnds⟩
  | append_singleton done t =>
      rcases hRun.of_append with ⟨middle, hDone, _⟩
      have hBefore := (open_loop_counted hLoop.of_snoc hDone
        (fun s hMem => hPlanner s (by simp [hMem]))
        ⟨hUnplanned, hCleared⟩ hLoop.open_before).2.2.2
      refine ⟨?_, ?_, hEnds⟩
      · by_cases hOpen : t.isOpen = true
        · have hAll : ∀ s ∈ done ++ [t], s.isOpen = true := by
            intro s hMem
            rcases List.mem_append.mp hMem with hOld | hNew
            · exact hLoop.open_before s hOld
            · rw [List.mem_singleton.mp hNew]
              exact hOpen
          rw [List.filter_eq_self.mpr hAll]
          exact (open_loop_counted hLoop hRun hPlanner
            ⟨hUnplanned, hCleared⟩ hAll).2.2.2
        · have hNone : [t].filter Advance.isOpen = [] := by
            simp [hOpen]
          have hSome : (done.filter Advance.isOpen).length ≤
              done.length :=
            List.length_filter_le _ _
          rw [List.filter_append, List.length_append, hNone,
            List.length_nil]
          omega
      · rw [List.length_append, List.length_singleton]
        omega

end Loops

namespace Sample

/- A request that allows a single step. -/
def hasty : ProcessRequest :=
  { message with
    policy := { EnginePolicy.default with maxSteps := 1 } }

/- A provider that never comes to an end. -/
def neverDone : Script where
  decision _ :=
    { action := .callSkills [call "a" (.object [])] }
  skill _ := .returned (.ok .null)

/- A loop that ends at the limit of its policy. -/
def hastyTurns : List (Script × AdvanceRequest) :=
  [(neverDone, .trigger hasty),
    (neverDone, .continueWith (hasty.continuation false))]

set_option maxRecDepth 100000 in
theorem hasty_loop :
    LoopOf hasty
      (Script.advances engine hastyTurns
        (World.empty "session")) := by
  refine @LoopOf.next hasty [] _ _ false (.start rfl) ?_ rfl
  decide +kernel

end Sample

/- A loop whose provider asks for the same skill forever. -/
theorem never_answering_loop_returns :
    ((Script.advances Sample.engine Sample.hastyTurns
        (World.empty "session")).filter
          Advance.isOpen).length ≤ 1 ∧
      (Script.advances Sample.engine Sample.hastyTurns
        (World.empty "session")).length ≤ 1 + 1 := by
  have hRun := Run.of_reliable
    (Script.session_run Sample.engine Sample.hastyTurns
      (World.empty "session"))
  have hNone : Run host (World.empty "session") []
      (World.empty "session") := .nil
  have hUnplanned : ∀ plan : ExecutionPlanRecord,
      .executionPlan plan ∉ (World.empty "session").ledger :=
    fun _ => List.not_mem_nil
  have hReturns := loop_returns hNone hUnplanned
    (fun t hMem => by
      rw [Script.advances_engine t hMem]
      rfl)
    Sample.hasty_loop hRun
  exact ⟨hReturns.1, hReturns.2.1⟩

end RainEngine
