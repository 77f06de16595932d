import RainEngine.Advances.Contract
import RainEngine.Advances.Preparation
import RainEngine.Advances.Sequels
import RainEngine.Improvement.Tunings

/-
  This file is about the step budget of a run. A continuation
  counts the decisions and the deliberations since the last
  outcome, so a decision to plan is charged twice, and it goes
  on below the limit of its own request.

  Key definitions include:
    * `SessionRecord.isCharged`
    * `ResumesApproval`
    * `ChargedAt`
    * `StepsAccounted`

  Key theorems include:
    * `charges_performSingleStep`
    * `charges_advance`
    * `run_steps_accounted`
    * `plan_charged_twice`
-/

namespace RainEngine

open Effects

------------------------------------------------------------
-- Charged Records
------------------------------------------------------------

/- A record that is charged to the step budget. -/
def SessionRecord.isCharged : SessionRecord → Bool
| .modelDecision _ => true
| .deliberation _ => true
| _ => false

/- A record that changes neither the charge nor the policy. -/
def SessionRecord.isFree : SessionRecord → Bool
| .modelDecision _ => false
| .deliberation _ => false
| .outcome _ => false
| .policyTuning _ => false
| _ => true

/- Neither a decision nor an outcome for the step limit. -/
def SessionRecord.isSequel : SessionRecord → Bool
| .modelDecision _ => false
| .outcome record =>
    decide (record.stopReason ≠ .maxStepsReached)
| _ => true

def Op.Free (op : Op) : Prop :=
  ∀ record, op = .append record → record.isFree = true

def Op.Sequel (op : Op) : Prop :=
  ∀ record, op = .append record → record.isSequel = true

/- An approval has been triggered since the last outcome. -/
def ResumesApproval (records : List SessionRecord) : Prop :=
  ∃ trigger, .trigger trigger ∈ sinceLastOutcome records ∧
    trigger.trigger.isApproval = true

/-
  A decision is numbered by the charge so far and taken below
  the limit, and the limit is only named when the charge has
  reached it.
-/
def ChargedAt
    (policy : EnginePolicy)
    (records : List SessionRecord) :
    SessionRecord → Prop
| .modelDecision decision =>
    decision.step = currentStepCount records ∧
      decision.step <
        (effectivePolicy policy records).maxSteps
| .outcome outcome =>
    outcome.stopReason = .maxStepsReached →
      outcome.stepsExecuted = currentStepCount records ∧
        (effectivePolicy policy records).maxSteps ≤
          currentStepCount records
| _ => True

/- What is appended outside approvals is charged so. -/
def Charges
    (policy : EnginePolicy)
    (w : World)
    (op : Op) :
    Prop :=
  ∀ record, op = .append record →
    ResumesApproval w.ledger ∨
      ChargedAt policy w.ledger record

/- The kernel works with the charge and limit of the ledger. -/
def Tallied
    (policy : EnginePolicy)
    (context : AgentContext)
    (stepsExecuted : Nat)
    (records : List SessionRecord) :
    Prop :=
  ResumesApproval records ∨
    (stepsExecuted = currentStepCount records ∧
      context.metadata.policy.maxSteps =
        (effectivePolicy policy records).maxSteps)

/-
  A copy has the charge and the policy of the ledger, in which
  an approval is resumed if the advance is for one.
-/
structure InStep
    (policy : EnginePolicy)
    (isApproval : Bool)
    (copy records : List SessionRecord) : Prop where
  steps : currentStepCount copy = currentStepCount records
  policy :
    effectivePolicy policy copy =
      effectivePolicy policy records
  resumes : isApproval = true → ResumesApproval records

section Charges

variable {policy : EnginePolicy}
variable {records : List SessionRecord}
variable {record : SessionRecord}
variable {w : World}
variable {op : Op}

theorem currentStepCount_snoc
    (hOpen : record.isOutcome = false) :
    currentStepCount (records ++ [record]) =
      currentStepCount records +
        if record.isCharged then 1 else 0 := by
  unfold currentStepCount
  rw [sinceLastOutcome_append, hOpen]
  simp only [Bool.false_eq_true, if_false, List.filter_append,
    List.length_append]
  cases record <;> rfl

theorem charge_of_free
    (hFree : record.isFree = true) :
    record.isOutcome = false ∧ record.isCharged = false ∧
      record.asPolicyTuning = none := by
  cases record <;> first | exact ⟨rfl, rfl, rfl⟩ | cases hFree

theorem effectivePolicy_snoc_free
    (hFree : record.isFree = true) :
    effectivePolicy policy (records ++ [record]) =
      effectivePolicy policy records := by
  unfold effectivePolicy
  rw [activePolicyOverlay_snoc_other]
  exact (charge_of_free hFree).2.2

theorem currentStepCount_snoc_free
    (hFree : record.isFree = true) :
    currentStepCount (records ++ [record]) =
      currentStepCount records := by
  rcases charge_of_free hFree with ⟨hOpen, hUncharged, _⟩
  rw [currentStepCount_snoc hOpen, hUncharged]
  rfl

theorem ResumesApproval.snoc
    (hResumes : ResumesApproval records)
    (hOpen : record.isOutcome = false) :
    ResumesApproval (records ++ [record]) := by
  rcases hResumes with ⟨trigger, hMem, hApproval⟩
  refine ⟨trigger, ?_, hApproval⟩
  rw [sinceLastOutcome_append, hOpen]
  exact List.mem_append_left _ hMem

/- The trigger of an approval opens one. -/
theorem resumesApproval_trigger
    {trigger : TriggerRecord}
    (hApproval : trigger.trigger.isApproval = true) :
    ResumesApproval (records ++ [.trigger trigger]) := by
  refine ⟨trigger, ?_, hApproval⟩
  rw [sinceLastOutcome_append]
  exact List.mem_append_right _ (List.mem_singleton_self _)

theorem Tallied.snoc
    {context : AgentContext}
    {stepsExecuted : Nat}
    (hTallied : Tallied policy context stepsExecuted records)
    (hFree : record.isFree = true) :
    Tallied policy context stepsExecuted
      (records ++ [record]) := by
  unfold Tallied
  rw [currentStepCount_snoc_free hFree,
    effectivePolicy_snoc_free hFree]
  rcases hTallied with hResumes | hSame
  · exact .inl (hResumes.snoc (charge_of_free hFree).1)
  · exact .inr hSame

theorem InStep.snoc
    {isApproval : Bool}
    {copy : List SessionRecord}
    (hInStep : InStep policy isApproval copy records)
    (hFree : record.isFree = true) :
    InStep policy isApproval copy (records ++ [record]) := by
  constructor
  · rw [currentStepCount_snoc_free hFree]
    exact hInStep.steps
  · rw [effectivePolicy_snoc_free hFree]
    exact hInStep.policy
  · intro hApproval
    exact (hInStep.resumes hApproval).snoc
      (charge_of_free hFree).1

theorem charges_free
    (hFree : op.Free) :
    Charges policy w op := by
  intro record hSame
  right
  have hKind := hFree record hSame
  cases record with
  | modelDecision decision => cases hKind
  | outcome outcome => cases hKind
  | _ => trivial

theorem charges_sequel
    (hSequel : op.Sequel) :
    Charges policy w op := by
  intro record hSame
  right
  have hKind := hSequel record hSame
  cases record with
  | modelDecision decision => cases hKind
  | outcome outcome =>
      intro hLimit
      simp [SessionRecord.isSequel, hLimit] at hKind
  | _ => trivial

theorem free_silent
    (hSilent : op.Silent) :
    op.Free := by
  intro record hSame
  subst hSame
  exact hSilent.elim

theorem free_append
    (hFree : record.isFree = true) :
    (Op.append record).Free := by
  intro other hSame
  cases hSame
  exact hFree

theorem sequel_silent
    (hSilent : op.Silent) :
    op.Sequel := by
  intro record hSame
  subst hSame
  exact hSilent.elim

theorem sequel_append
    (hSequel : record.isSequel = true) :
    (Op.append record).Sequel := by
  intro other hSame
  cases hSame
  exact hSequel

end Charges

------------------------------------------------------------
-- What Follows A Decision
------------------------------------------------------------

/- A part that takes no decision and names no step limit. -/
abbrev Sequel
    {α : Type}
    (p : EngineM α) :
    Prop :=
  Uses Op.Sequel (fun _ => True) p

section Sequels

variable {engine : AgentEngine}
variable {context : AgentContext}
variable {stepsExecuted : Nat}
variable {emittedEvents : List KernelEventRecord}

/- What follows a decision takes none and names no limit. -/
theorem Op.Follows.sequel
    {op : Op}
    (hFollows : op.Follows) :
    op.Sequel := by
  intro record hSame
  subst hSame
  cases record with
  | modelDecision decision => exact hFollows.elim
  | outcome outcome =>
      unfold SessionRecord.isSequel
      rw [decide_eq_true_iff]
      intro hLimit
      have hGuarded : outcome.stopReason.isGuarded = false :=
        hFollows
      rw [hLimit] at hGuarded
      cases hGuarded
  | _ => rfl

theorem IsAppraisal.sequel
    {record : SessionRecord}
    (hAppraisal : IsAppraisal record) :
    (Op.append record).Sequel := by
  apply sequel_append
  cases record <;> first | rfl | exact hAppraisal.elim

theorem sequel_finish
    {stopReason : StopReason}
    {response detail : Option String}
    {resumeToken : Option ResumeToken}
    (hOther : stopReason ≠ .maxStepsReached) :
    Sequel
      (finish engine context stopReason response detail
        stepsExecuted resumeToken) := by
  apply uses_finish
  · intro record hReason
    apply sequel_append
    unfold SessionRecord.isSequel
    rw [decide_eq_true_iff, hReason]
    exact hOther
  · exact sequel_silent trivial
  · intro record hAppraisal
    exact hAppraisal.sequel
  · intro snapshot
    exact sequel_silent trivial

theorem sequel_finishAdvance
    {stopReason : StopReason}
    {response detail : Option String}
    {resumeToken : Option ResumeToken}
    (hOther : stopReason ≠ .maxStepsReached) :
    Sequel
      (finishAdvance engine context stopReason response
        detail stepsExecuted resumeToken emittedEvents) :=
  Uses.bind (sequel_finish hOther) fun _ _ => trivial

/- The requests of a batch are free of charge. -/
theorem free_batch
    {step : Nat}
    {calls : List PlannedSkillCall}
    {approvalOverride : Bool} :
    Uses Op.Free (fun _ => True)
      (executePlannedCalls engine context step calls
        approvalOverride) := by
  refine Uses.mono ?_ (fun _ h => h) uses_batch
  intro op hBatch record hSame
  subst hSame
  cases record <;> first | rfl | exact hBatch.elim

/- An action takes no decision of its own. -/
theorem sequel_executeAction
    {action : AgentAction} :
    Sequel
      (executeAction engine context action stepsExecuted
        emittedEvents) :=
  Uses.mono (fun _ h => h.sequel) (fun _ h => h)
    follows_executeAction

end Sequels

------------------------------------------------------------
-- Steps
------------------------------------------------------------

/- Whatever happens, the requests are charged so. -/
abbrev Charging
    {α : Type}
    (M : Machine Op Answer World)
    (policy : EnginePolicy)
    (p : EngineM α)
    (w : World) :
    Prop :=
  Safe M (Charges policy) (fun _ _ => True)
    (fun _ _ => True) p w

section Steps

variable {M : Machine Op Answer World}
variable {engine : AgentEngine}
variable {policy : EnginePolicy}
variable {context : AgentContext}
variable {trigger : AgentTrigger}
variable {stepsExecuted failures : Nat}
variable {emittedEvents : List KernelEventRecord}
variable {w : World}

theorem Sequel.charging
    {α : Type}
    {p : EngineM α}
    (hSequel : Sequel p) :
    Charging M policy p w :=
  Safe.mono (fun _ _ h => h) (fun _ _ _ => trivial)
    (fun _ _ _ => trivial)
    (Uses.safe (I := fun _ => True) hSequel
      (fun _ _ _ hOp => charges_sequel hOp)
      (fun _ _ _ _ _ _ => trivial) trivial)

/- What free records keep, a free part keeps. -/
theorem OnHost.safe_free
    {α : Type}
    {V : α → Prop}
    {I : List SessionRecord → Prop}
    {p : EngineM α}
    (hHost : OnHost M)
    (hSnoc : ∀ records record, I records →
      record.isFree = true → I (records ++ [record]))
    (hUses : Uses Op.Free V p)
    (hInit : I w.ledger) :
    Safe M (Charges policy) (fun a w' => V a ∧ I w'.ledger)
      (fun _ _ => True) p w := by
  refine Safe.mono (fun _ _ h => h) (fun _ _ h => h)
    (fun _ _ _ => trivial)
    (Uses.safe (I := fun w : World => I w.ledger) hUses
      (fun _ _ _ hOp => charges_free hOp) ?_ hInit)
  intro w op a hKept hFree _
  rw [hHost.next]
  rcases hostNext_ledger w op a with
    hSame | ⟨record, hOp, hLedger⟩
  · rw [hSame]
    exact hKept
  · rw [hLedger]
    exact hSnoc _ _ hKept (hFree record hOp)

theorem charging_followDecision
    {decision : ProviderDecision}
    (hHost : OnHost M)
    (hTallied : Tallied policy context stepsExecuted w.ledger)
    (hBelow :
      stepsExecuted < context.metadata.policy.maxSteps) :
    Charging M policy
      (followDecision engine context decision stepsExecuted
        emittedEvents) w := by
  unfold followDecision
  refine Safe.bind
    (hHost.safe_free
      (I := Tallied policy context stepsExecuted)
      (fun _ _ h => h.snoc)
      (uses_persistProviderMetadata
        (fun _ => free_append rfl)
        (fun _ => free_append rfl)) hTallied) ?_
  rintro context' w' ⟨_, hKept⟩
  dsimp only
  rw [Safe.bind_iff]
  apply hHost.safe_append
  · intro record hSame
    cases hSame
    rcases hKept with hResumes | ⟨hSteps, hLimit⟩
    · exact .inl hResumes
    · right
      refine ⟨hSteps, ?_⟩
      rw [← hLimit]
      exact hBelow
  · exact sequel_executeAction.charging
  · intro error _
    trivial

theorem charging_askProvider
    (hHost : OnHost M)
    (hTallied : Tallied policy context stepsExecuted w.ledger)
    (hBelow :
      stepsExecuted < context.metadata.policy.maxSteps) :
    Charging M policy
      (askProvider engine context trigger stepsExecuted
        emittedEvents) w := by
  unfold askProvider
  refine Safe.bind
    (hHost.safe_free (V := fun _ => True)
      (I := Tallied policy context stepsExecuted)
      (fun _ _ h => h.snoc)
      ⟨free_silent trivial, fun _ => trivial⟩ hTallied) ?_
  rintro answer w' ⟨_, hKept⟩
  cases answer with
  | none => exact (sequel_finishAdvance (by simp)).charging
  | some answer =>
      cases answer with
      | error error =>
          exact (sequel_finishAdvance (by simp)).charging
      | ok decision =>
          exact charging_followDecision hHost hKept hBelow

/- The guard stops at the limit only when it is reached. -/
theorem charging_finish
    {stopReason : StopReason}
    {response detail : Option String}
    {resumeToken : Option ResumeToken}
    (hHost : OnHost M)
    (hTallied : Tallied policy context stepsExecuted w.ledger)
    (hLimit : stopReason = .maxStepsReached →
      context.metadata.policy.maxSteps ≤ stepsExecuted) :
    Charging M policy
      (finish engine context stopReason response detail
        stepsExecuted resumeToken) w := by
  refine Safe.mono (fun _ _ h => h) (fun _ _ _ => trivial)
    (fun _ _ _ => trivial) (hHost.safe_finish ?_ ?_)
  · intro w' op hEnds
    exact charges_sequel hEnds.follows.sequel
  · intro outcome hReason _ hSame record hRecord
    cases hRecord
    rcases hTallied with hResumes | ⟨hSteps, hPolicy⟩
    · exact .inl hResumes
    · right
      intro hLimited
      rw [hSame]
      refine ⟨hSteps, ?_⟩
      rw [← hPolicy, ← hSteps]
      exact hLimit (hReason.symm.trans hLimited)

/- One step, from a charge that agrees with the ledger. -/
theorem charging_performSingleStep
    (hHost : OnHost M)
    (hTallied :
      Tallied policy context stepsExecuted w.ledger) :
    Charging M policy
      (performSingleStep engine context trigger
        stepsExecuted failures emittedEvents) w := by
  unfold performSingleStep
  split
  · unfold Charging
    rw [Safe.bind_iff]
    apply hHost.safe_append
      (charges_free (free_append rfl))
    · exact sequel_executeAction.charging
    · intro error _
      exact sequel_executeAction.charging
  · unfold policyOutcome
    rw [Program.bind_assoc]
    refine Safe.bind
      (hHost.safe_free
        (I := Tallied policy context stepsExecuted)
        (fun _ _ h => h.snoc)
        (uses_policyStop (fun _ => free_silent trivial)
          (fun _ => free_silent trivial)) hTallied) ?_
    rintro stop w' ⟨hVerdict, hKept⟩
    cases stop with
    | none =>
        exact charging_askProvider hHost hKept
          (hVerdict.goesOn rfl)
    | some stop =>
        rcases stop with ⟨stopReason, detail⟩
        dsimp only
        rw [Program.bind_assoc]
        refine Safe.bind
          (charging_finish hHost hKept
            (hVerdict.limit _ _ rfl)) ?_
        intro outcome w'' _
        trivial

end Steps

------------------------------------------------------------
-- Advances
------------------------------------------------------------

section Advances

variable {M : Machine Op Answer World}
variable {engine : AgentEngine}
variable {policy : EnginePolicy}
variable {isApproval : Bool}
variable {context : AgentContext}
variable {stepsExecuted failures : Nat}
variable {emittedEvents : List KernelEventRecord}
variable {w : World}

theorem charging_approvalStep
    {trigger : AgentTrigger}
    {token : ResumeToken}
    {decision : ApprovalDecision}
    {metadata : Json}
    (hHost : OnHost M)
    (hResumes : ResumesApproval w.ledger) :
    Charging M policy
      (approvalStep engine context trigger token decision
        metadata stepsExecuted failures emittedEvents) w := by
  have hSnoc : ∀ records record, ResumesApproval records →
      record.isFree = true →
        ResumesApproval (records ++ [record]) := by
    intro records record hKept hFree
    exact hKept.snoc (charge_of_free hFree).1
  have hFind : Uses Op.Free (fun _ => True)
      (findApprovalTarget context token decision) := by
    refine ⟨free_silent trivial, ?_⟩
    intro answer
    cases answer with
    | error error => trivial
    | ok found => cases found <;> trivial
  unfold approvalStep
  refine Safe.bind (hHost.safe_free hSnoc hFind hResumes) ?_
  rintro found w' ⟨_, hKept⟩
  cases found with
  | none => exact (sequel_finishAdvance (by simp)).charging
  | some target =>
      have hResolution : Uses Op.Free (fun _ => True)
          (recordResolution target metadata) := by
        unfold recordResolution
        split
        · trivial
        · exact uses_appendOrFail (free_append rfl) trivial
      have hResume : Uses Op.Free (fun _ => True)
          (resumeCalls engine context target) := by
        unfold resumeCalls
        cases target.decision with
        | approved => exact free_batch
        | rejected => trivial
      refine Safe.bind
        (hHost.safe_free hSnoc hResolution hKept) ?_
      rintro _ w' ⟨_, hKept⟩
      refine Safe.bind
        (hHost.safe_free hSnoc hResume hKept) ?_
      rintro execution w' ⟨_, hKept⟩
      cases execution with
      | suspended _ _ _ =>
          exact (sequel_finishAdvance (by simp)).charging
      | executed batch =>
          refine Safe.bind
            (hHost.safe_free hSnoc
              (uses_recordResultsOrFail
                fun _ => free_append rfl) hKept) ?_
          rintro context' w' ⟨_, hKept⟩
          exact charging_performSingleStep hHost (.inl hKept)

/- A snapshot that is in step starts the step of a trigger. -/
theorem charging_triggerStep
    {request : ProcessRequest}
    {triggerId : String}
    {snapshot : SessionSnapshot}
    (hHost : OnHost M)
    (hInStep :
      InStep request.policy request.trigger.isApproval
        snapshot.records w.ledger) :
    Charging M request.policy
      (triggerStep engine request triggerId snapshot) w := by
  unfold triggerStep
  refine Safe.bind
    (hHost.safe_free
      (I := InStep request.policy request.trigger.isApproval
        snapshot.records)
      (fun _ _ h => h.snoc)
      (uses_persistKernelEvents fun _ => free_append rfl)
      hInStep) ?_
  rintro context' w' ⟨⟨_, hMetadata⟩, hKept⟩
  dsimp only
  split
  · rename_i hTrigger
    apply charging_approvalStep hHost
    apply hKept.resumes
    rw [hTrigger]
    rfl
  · apply charging_performSingleStep hHost
    right
    refine ⟨hKept.steps, ?_⟩
    rw [hMetadata, ← hKept.policy]
    rfl

/- A record of a preparation is free. -/
theorem IsPreparation.free
    {record : SessionRecord}
    (hRecord : IsPreparation record) :
    record.isFree = true := by
  cases record <;> first | rfl | exact hRecord.elim

/- The preparation of a step keeps a copy in step. -/
theorem charging_preparing
    {base : List SessionRecord}
    (hLoads : ∀ w, ¬LoadFails M w) :
    Preparing M engine (Charges policy)
      (InStep policy isApproval base) where
  loads := hLoads
  quiet := by
    intro w op hQuiet
    apply charges_free
    apply free_silent
    cases op <;> trivial
  summarize := fun _ _ _ => charges_free (free_silent trivial)
  request := fun hRecord =>
    charges_free (free_append hRecord.free)
  keeps := fun hRecord hKept => hKept.snoc hRecord.free
  proposed := fun _ _ _ =>
    ⟨fun _ => charges_free (free_append rfl),
      fun _ hKept => hKept.snoc rfl⟩

theorem InStep.of_base
    {base copy records : List SessionRecord}
    (hCopy : InStep policy isApproval base copy)
    (hRecords : InStep policy isApproval base records) :
    InStep policy isApproval copy records where
  steps := hCopy.steps.symm.trans hRecords.steps
  policy := hCopy.policy.symm.trans hRecords.policy
  resumes := hRecords.resumes

theorem charging_processTrigger
    {request : ProcessRequest}
    {trigger : TriggerRecord}
    (hHost : OnHost M)
    (hLoads : ∀ w, ¬LoadFails M w)
    (hResumes : request.trigger.isApproval = true →
      ResumesApproval w.ledger) :
    Charging M request.policy
      (processTrigger engine request trigger) w := by
  have hBase : InStep request.policy
      request.trigger.isApproval w.ledger w.ledger :=
    ⟨rfl, rfl, hResumes⟩
  apply (charging_preparing hLoads).safe_processTrigger
    hHost hBase
  intro snapshot w' hCopy hRecords
  exact charging_triggerStep hHost (hCopy.of_base hRecords)

theorem charging_advanceContinue
    {request : ContinueRequest}
    (hHost : OnHost M) :
    Charging M request.policy (advanceContinue engine request)
      w := by
  have hSilent : ∀ {w op}, op.Silent →
      Charges request.policy w op :=
    fun hSilent => charges_free (free_silent hSilent)
  apply hHost.safe_advanceContinue (hSilent trivial)
  · intro error _
    trivial
  · intro _
    exact ⟨hSilent trivial, fun _ _ => trivial⟩
  · intro trigger _
    have hTallied : Tallied request.policy
        (continueContext request trigger w.snapshot)
        (currentStepCount w.ledger) w.ledger :=
      .inr ⟨rfl, rfl⟩
    unfold continueTrigger
    dsimp only
    split
    · unfold resumeGraph
      refine Safe.bind
        (hHost.safe_free
          (I := Tallied request.policy
            (continueContext request trigger w.snapshot)
            (currentStepCount w.ledger))
          (fun _ _ h => h.snoc) free_batch hTallied) ?_
      rintro execution w' ⟨_, hKept⟩
      cases execution with
      | suspended _ _ _ =>
          exact (sequel_finishAdvance (by simp)).charging
      | executed batch =>
          refine Safe.bind
            (hHost.safe_free
              (I := Tallied request.policy
                (continueContext request trigger w.snapshot)
                (currentStepCount w.ledger))
              (fun _ _ h => h.snoc)
              (uses_recordResultsOrFail
                fun _ => free_append rfl) hKept) ?_
          rintro context' w'' ⟨⟨_, hMetadata⟩, hKept⟩
          apply charging_performSingleStep hHost
          unfold Tallied at hKept ⊢
          rw [hMetadata]
          exact hKept
    · exact charging_performSingleStep hHost hTallied

/- Every advance charges its steps to the ledger. -/
theorem charging_advance
    {request : AdvanceRequest}
    (hHost : OnHost M)
    (hLoads : ∀ w, ¬LoadFails M w) :
    Charging M request.policy (advance engine request) w := by
  have hSilent : ∀ {w op}, op.Silent →
      Charges request.policy w op :=
    fun hSilent => charges_free (free_silent hSilent)
  cases request with
  | trigger request =>
      apply hHost.safe_advanceTrigger (hSilent trivial)
      · intro triggerId _ key
        exact hSilent trivial
      · intro triggerId _ prior _
        trivial
      · intro triggerId _ _
        refine ⟨charges_free (free_append rfl),
          fun _ _ => trivial, ?_⟩
        apply charging_processTrigger hHost hLoads
        intro hApproval
        exact resumesApproval_trigger hApproval
  | continueWith request =>
      exact charging_advanceContinue hHost

end Advances

------------------------------------------------------------
-- Runs
------------------------------------------------------------

def SessionRecord.isDeliberation : SessionRecord → Bool
| .deliberation _ => true
| _ => false

def SessionRecord.decisionStep : SessionRecord → Option Nat
| .modelDecision decision => some decision.step
| _ => none

/- Every decision is numbered by the charge before it. -/
def Numbered (records : List SessionRecord) : Prop :=
  ∀ before decision after,
    records = before ++ .modelDecision decision :: after →
      ¬ResumesApproval before →
        decision.step = currentStepCount before

/- Two decisions with no other and no outcome in between. -/
structure Successive
    (records before : List SessionRecord)
    (first : ModelDecisionRecord)
    (between : List SessionRecord)
    (second : ModelDecisionRecord) : Prop where
  split : ∃ after,
    records = before ++ .modelDecision first ::
      (between ++ .modelDecision second :: after)
  closed : ∀ record ∈ between,
    record.isOutcome = false ∧ record.decisionStep = none

/- The advance asks to append the record to the ledger. -/
def Advance.AppendsTo
    (t : Advance)
    (records : List SessionRecord)
    (record : SessionRecord) :
    Prop :=
  ∃ s ∈ t.steps,
    s.before.ledger = records ∧ s.op = .append record

/- The step limit in force when a ledger has been reached. -/
def Advance.limit
    (t : Advance)
    (records : List SessionRecord) :
    Nat :=
  (effectivePolicy t.request.policy records).maxSteps

/-
  How a run is charged, approvals apart: a decision costs one
  step, a deliberation another one. Decisions are taken below
  the limit, and the limit is only named when it is reached;
  then exactly, if the last decision had the same limit and
  nothing has been charged since.
-/
structure StepsAccounted
    (run : List Advance)
    (w : World) : Prop where
  numbered : Numbered w.ledger
  successive : ∀ before first between second,
    Successive w.ledger before first between second →
      ¬ResumesApproval
          (before ++ .modelDecision first :: between) →
        second.step =
          first.step + 1 +
            between.countP SessionRecord.isDeliberation
  below : ∀ t ∈ run, ∀ records decision,
    t.AppendsTo records (.modelDecision decision) →
      ¬ResumesApproval records →
        decision.step < t.limit records
  reached : ∀ t ∈ run, ∀ records outcome,
    t.AppendsTo records (.outcome outcome) →
      outcome.stopReason = .maxStepsReached →
      ¬ResumesApproval records →
        t.limit records ≤ currentStepCount records
  sharp : ∀ t ∈ run, ∀ records outcome,
    t.AppendsTo records (.outcome outcome) →
      outcome.stopReason = .maxStepsReached →
      ¬ResumesApproval records →
      ∀ t' ∈ run, ∀ before decision between,
        t'.AppendsTo before (.modelDecision decision) →
        records = before ++ .modelDecision decision :: between →
        (∀ record ∈ between,
          record.isOutcome = false ∧
            record.isCharged = false) →
        t'.limit before = t.limit records →
          currentStepCount records = t.limit records

section Runs

variable {records before between more : List SessionRecord}
variable {record : SessionRecord}
variable {first second : ModelDecisionRecord}
variable {run : List Advance}
variable {t : Advance}
variable {w : World}

/- The charge of records without an outcome. -/
theorem currentStepCount_append
    (hOpen : ∀ record ∈ more, record.isOutcome = false) :
    currentStepCount (records ++ more) =
      currentStepCount records +
        more.countP SessionRecord.isCharged := by
  induction more using List.reverseRecOn with
  | nil => simp
  | append_singleton more record ih =>
      have hLast := hOpen record (by simp)
      have hRest := ih fun other hMem =>
        hOpen other (by simp [hMem])
      rw [← List.append_assoc, currentStepCount_snoc hLast,
        hRest, List.countP_append, List.countP_singleton]
      omega

theorem ResumesApproval.append
    (hResumes : ResumesApproval records)
    (hOpen : ∀ record ∈ more, record.isOutcome = false) :
    ResumesApproval (records ++ more) := by
  rcases hResumes with ⟨trigger, hMem, hApproval⟩
  refine ⟨trigger, ?_, hApproval⟩
  rw [sinceLastOutcome_append_list hOpen]
  exact List.mem_append_left _ hMem

theorem numbered_nil : Numbered [] := by
  intro before decision after hSplit
  simp at hSplit

theorem Numbered.snoc
    (hNumbered : Numbered records)
    (hNew : ∀ decision, record = .modelDecision decision →
      ResumesApproval records ∨
        decision.step = currentStepCount records) :
    Numbered (records ++ [record]) := by
  intro before decision after hSplit hPlain
  rcases Logs.snoc_eq_append_cons hSplit with
    ⟨hNone, hLast⟩ | ⟨init, _, hInit⟩
  · rw [hNone] at hSplit
    have hSame : records = before :=
      List.append_inj_left' hSplit rfl
    rw [hSame] at hNew
    rcases hNew decision hLast.symm with hResumes | hStep
    · exact (hPlain hResumes).elim
    · exact hStep
  · exact hNumbered before decision init hInit hPlain

/- Nothing but a deliberation is charged between decisions. -/
theorem countP_isCharged
    (hClosed : ∀ record ∈ between,
      record.isOutcome = false ∧
        record.decisionStep = none) :
    between.countP SessionRecord.isCharged =
      between.countP SessionRecord.isDeliberation := by
  apply List.countP_congr
  intro record hMem
  have hNone := (hClosed record hMem).2
  cases record with
  | modelDecision decision => cases hNone
  | _ => rfl

/- Decisions in order are numbered in order. -/
theorem Numbered.successive
    (hNumbered : Numbered records)
    (hSuccessive :
      Successive records before first between second)
    (hPlain :
      ¬ResumesApproval
        (before ++ .modelDecision first :: between)) :
    second.step =
      first.step + 1 +
        between.countP SessionRecord.isDeliberation := by
  rcases hSuccessive.split with ⟨after, hSplit⟩
  have hOpen : ∀ record ∈ .modelDecision first :: between,
      record.isOutcome = false := by
    intro record hMem
    rcases List.mem_cons.mp hMem with hHead | hTail
    · rw [hHead]
      rfl
    · exact (hSuccessive.closed record hTail).1
  have hFirst : first.step = currentStepCount before := by
    apply hNumbered before first _ hSplit
    intro hResumes
    exact hPlain (hResumes.append hOpen)
  have hSecond :
      second.step =
        currentStepCount
          (before ++ .modelDecision first :: between) := by
    apply hNumbered _ second after _ hPlain
    rw [hSplit, List.append_assoc]
    rfl
  rw [hSecond, currentStepCount_append hOpen,
    List.countP_cons_of_pos rfl,
    countP_isCharged hSuccessive.closed, hFirst]
  omega

/- What an advance appends is charged to its ledger. -/
theorem Advance.charged
    (hRuns : t.Runs loading)
    (hAppends : t.AppendsTo records record)
    (hPlain : ¬ResumesApproval records) :
    ChargedAt t.request.policy records record := by
  have hSafe : Charging loading t.request.policy
      (advance t.engine t.request) t.before :=
    charging_advance .loading not_loadFails_loading
  rcases hAppends with ⟨s, hMem, hLedger, hOp⟩
  rcases hSafe.steps hRuns s hMem record hOp with
    hResumes | hCharged
  · rw [hLedger] at hResumes
    exact (hPlain hResumes).elim
  · rw [hLedger] at hCharged
    exact hCharged

theorem Advance.numbered
    (hRuns : t.Runs loading)
    (hNumbered : Numbered t.before.ledger) :
    Numbered t.after.ledger := by
  refine (Exec.preserves (I := fun w => Numbered w.ledger)
    hRuns ?_ hNumbered).2
  intro s hMem hKept _
  change Numbered (hostNext s.before s.op s.answer).ledger
  rcases hostNext_ledger s.before s.op s.answer with
    hSame | ⟨record, hOp, hLedger⟩
  · rw [hSame]
    exact hKept
  · rw [hLedger]
    apply hKept.snoc
    intro decision hDecision
    by_cases hResumes : ResumesApproval s.before.ledger
    · exact .inl hResumes
    · rw [hDecision] at hOp
      have hCharged := t.charged hRuns
        ⟨s, hMem, rfl, hOp⟩ hResumes
      exact .inr hCharged.1

/-
  In every run whose session can be loaded the steps are
  accounted for, whatever else fails or stops.
-/
theorem run_steps_accounted
    (sessionId : String)
    (run : List Advance)
    (w : World)
    (hRun : Run loading (World.empty sessionId) run w) :
    StepsAccounted run w := by
  have hNumbered : Numbered w.ledger :=
    (hRun.preserves (I := fun w => Numbered w.ledger)
      (fun _ _ hRuns hKept => Advance.numbered hRuns hKept)
      numbered_nil).2
  have hCharged : ∀ t ∈ run, ∀ {records record},
      t.AppendsTo records record →
      ¬ResumesApproval records →
        ChargedAt t.request.policy records record :=
    fun t hMem _ _ => t.charged (hRun.runs t hMem)
  refine ⟨hNumbered, ?_, ?_, ?_, ?_⟩
  · intro before first between second hSuccessive hPlain
    exact hNumbered.successive hSuccessive hPlain
  · intro t hMem records decision hAppends hPlain
    exact (hCharged t hMem hAppends hPlain).2
  · intro t hMem records outcome hAppends hReason hPlain
    exact (hCharged t hMem hAppends hPlain hReason).2
  · intro t hMem records outcome hAppends hReason hPlain
      t' hMem' before decision between hDecision hSplit hFree
      hLimit
    have hOpen : ∀ record ∈ .modelDecision decision :: between,
        record.isOutcome = false := by
      intro record hIn
      rcases List.mem_cons.mp hIn with hHead | hTail
      · rw [hHead]
        rfl
      · exact (hFree record hTail).1
    have hBefore : ¬ResumesApproval before := by
      intro hResumes
      apply hPlain
      rw [hSplit]
      exact hResumes.append hOpen
    have hBelow := hCharged t' hMem' hDecision hBefore
    have hReached := hCharged t hMem hAppends hPlain hReason
    have hNone : between.countP SessionRecord.isCharged = 0 := by
      rw [List.countP_eq_zero]
      intro record hIn
      rw [(hFree record hIn).2]
      exact Bool.false_ne_true
    have hCount :
        currentStepCount records =
          currentStepCount before + 1 := by
      rw [hSplit, currentStepCount_append hOpen,
        List.countP_cons_of_pos rfl, hNone]
    unfold Advance.limit at hLimit ⊢
    have hUpper := hBelow.2
    rw [hBelow.1] at hUpper
    have hLower := hReached.2
    omega

end Runs

------------------------------------------------------------
-- Charges Out Of Step
------------------------------------------------------------

section OutOfStep

variable {records : List SessionRecord}

/-
  Two decisions of an open run, as their numbers are listed,
  follow each other.
-/
theorem successive_of_steps
    {count firstStep secondStep : Nat}
    (hSteps :
      (records.drop count).filterMap
          SessionRecord.decisionStep =
        [firstStep, secondStep])
    (hOpen :
      (records.drop count).any SessionRecord.isOutcome =
        false) :
    ∃ before first between second,
      Successive records before first between second ∧
        first.step = firstStep ∧ second.step = secondStep := by
  have hDecision : ∀ {record : SessionRecord} {step},
      record.decisionStep = some step →
        ∃ decision, record = .modelDecision decision ∧
          decision.step = step := by
    intro record step hSome
    cases record with
    | modelDecision decision =>
        cases hSome
        exact ⟨decision, rfl, rfl⟩
    | _ => cases hSome
  rcases List.filterMap_eq_cons_iff.mp hSteps with
    ⟨early, record, rest, hDrop, _, hFirst, hRest⟩
  rcases List.filterMap_eq_cons_iff.mp hRest with
    ⟨between, record', after, hTail, hNone, hSecond, _⟩
  rcases hDecision hFirst with ⟨first, hRecord, hFirstStep⟩
  rcases hDecision hSecond with
    ⟨second, hRecord', hSecondStep⟩
  subst hRecord hRecord'
  refine ⟨records.take count ++ early, first, between, second,
    ⟨⟨after, ?_⟩, ?_⟩, hFirstStep, hSecondStep⟩
  · rw [List.append_assoc, ← hTail, ← hDrop,
      List.take_append_drop]
  · intro record hMem
    refine ⟨?_, hNone record hMem⟩
    rw [List.any_eq_false] at hOpen
    have hClosed := hOpen record (by
      rw [hDrop, hTail]
      simp [hMem])
    simpa using hClosed

end OutOfStep

namespace Sample

/- A provider that plans first and then goes on thinking. -/
def plansFirst : Script where
  decision request :=
    if request.context.currentStep = 0 then
      { action := .plan "think" [] (.finite 1) }
    else { action := .continueWith .modelRequested }
  skill _ := .returned (.ok .null)

/- A provider that goes on thinking. -/
def thinks : Script where
  decision _ := { action := .continueWith .modelRequested }
  skill _ := .returned (.ok .null)

/- A continuation under a limit of one step. -/
def strict : ContinueRequest :=
  { resume with
    policy := { EnginePolicy.default with maxSteps := 1 } }

def plannedTurns : List (Script × AdvanceRequest) :=
  [(plansFirst, .trigger message),
    (plansFirst, .continueWith resume)]

def strictTurns : List (Script × AdvanceRequest) :=
  [(thinks, .trigger message), (thinks, .continueWith resume),
    (thinks, .continueWith strict)]

def chargedRun
    (turns : List (Script × AdvanceRequest)) :
    List Advance :=
  Script.advances engine turns (World.empty "session")

def chargedSession
    (turns : List (Script × AdvanceRequest)) :
    World :=
  Script.session engine turns (World.empty "session")

/- One message is answered, the next is not yet. -/
def openTurns : List (Script × AdvanceRequest) :=
  [(responds, .trigger message), (thinks, .trigger message)]

/- A store that cannot load the session any more. -/
def losesLoads
    (w : World) :
    (op : Op) → Option (Answer op)
| .loadSession => some (.error ⟨"disk failure"⟩)
| op => thinks.answer w op

theorem losesLoads_allowed
    {w : World}
    {op : Op}
    {a : Answer op}
    (hAnswer : losesLoads w op = some a) :
    host.allowed w op a := by
  unfold losesLoads at hAnswer
  split at hAnswer
  · cases hAnswer
    trivial
  · exact (Script.answer_allowed hAnswer).1

/- A message that finds the cached projection only. -/
def staleMessage : Advance :=
  let ran := (advance engine (.trigger message)).run host
    losesLoads (chargedSession openTurns)
  { engine := engine
    request := .trigger message
    before := chargedSession openTurns
    steps := ran.1
    after := ran.2.1
    result := ran.2.2 }

theorem staleMessage_run :
    Run host (World.empty "session")
      (chargedRun openTurns ++ [staleMessage])
      staleMessage.after := by
  have hOpen : Run host (World.empty "session")
      (chargedRun openTurns) staleMessage.before :=
    (Script.session_run engine openTurns _).of_reliable
  refine hOpen.append (.cons ?_ .nil)
  exact Program.run_exec
    (fun _ _ _ => losesLoads_allowed) _ _

/- The advance names the limit of one step at two. -/
def exceedsLimit (t : Advance) : Bool :=
  t.steps.any fun s =>
    match s.op with
    | .append (.outcome outcome) =>
        decide (outcome.stopReason = .maxStepsReached ∧
          t.limit s.before.ledger = 1 ∧
          currentStepCount s.before.ledger = 2)
    | _ => false

theorem of_exceedsLimit
    {t : Advance}
    (hExceeds : exceedsLimit t = true) :
    ∃ records outcome,
      t.AppendsTo records (.outcome outcome) ∧
        outcome.stopReason = .maxStepsReached ∧
        t.limit records = 1 ∧
        currentStepCount records = 2 := by
  rcases List.any_eq_true.mp hExceeds with ⟨s, hMem, hTest⟩
  split at hTest
  · rename_i outcome hOp
    rw [decide_eq_true_iff] at hTest
    exact ⟨s.before.ledger, outcome, ⟨s, hMem, rfl, hOp⟩, hTest⟩
  · cases hTest

def isApprovalTrigger : SessionRecord → Bool
| .trigger trigger => trigger.trigger.isApproval
| _ => false

theorem not_resumesApproval
    {records : List SessionRecord}
    (hNone : records.any isApprovalTrigger = false) :
    ¬ResumesApproval records := by
  intro hResumes
  rcases hResumes with ⟨trigger, hMem, hApproval⟩
  rw [List.any_eq_false] at hNone
  have hIn := (sinceLastOutcome_suffix records).mem hMem
  exact hNone _ hIn hApproval

end Sample

/- Planning is charged twice, and the steps accounted for. -/
theorem run_steps_accounted_planned :
    (Sample.chargedSession
        Sample.plannedTurns).ledger.filterMap
          SessionRecord.decisionStep = [0, 2] ∧
      StepsAccounted (Sample.chargedRun Sample.plannedTurns)
        (Sample.chargedSession Sample.plannedTurns) :=
  ⟨by decide +kernel,
    run_steps_accounted "session" _ _
      (Script.session_run Sample.engine Sample.plannedTurns
        _).loads⟩

/-
  The numbers of decisions do not follow each other after a
  plan; a limit that has been lowered is named late; and a
  message that cannot load its session counts anew.
-/
theorem plan_charged_twice :
    ¬(∀ (sessionId : String) (run : List Advance) (w : World),
      Run reliable (World.empty sessionId) run w →
        ∀ before first between second,
          Successive w.ledger before first between second →
            second.step = first.step + 1) ∧
    ¬(∀ (sessionId : String) (run : List Advance) (w : World),
      Run reliable (World.empty sessionId) run w →
        ∀ t ∈ run, ∀ records outcome,
          t.AppendsTo records (.outcome outcome) →
          outcome.stopReason = .maxStepsReached →
            currentStepCount records = t.limit records) ∧
    ¬(∀ (sessionId : String) (run : List Advance) (w : World),
      Run host (World.empty sessionId) run w →
        ∀ before first between second,
          Successive w.ledger before first between second →
          ¬ResumesApproval
              (before ++ .modelDecision first :: between) →
            second.step =
              first.step + 1 +
                between.countP
                  SessionRecord.isDeliberation) := by
  refine ⟨?_, ?_, ?_⟩
  · intro hAll
    rcases @successive_of_steps
        (Sample.chargedSession Sample.plannedTurns).ledger
        0 0 2 (by decide +kernel) (by decide +kernel) with
      ⟨before, first, between, second, hSuccessive, hFirst,
        hSecond⟩
    have hNext := hAll "session" _ _
      (Script.session_run Sample.engine Sample.plannedTurns _)
      before first between second hSuccessive
    rw [hFirst, hSecond] at hNext
    cases hNext
  · intro hAll
    have hExceeds :
        (Sample.chargedRun Sample.strictTurns).any
          Sample.exceedsLimit = true := by
      decide +kernel
    rcases List.any_eq_true.mp hExceeds with
      ⟨t, hMem, hTest⟩
    rcases Sample.of_exceedsLimit hTest with
      ⟨records, outcome, hAppends, hReason, hLimit, hCount⟩
    have hSame := hAll "session" _ _
      (Script.session_run Sample.engine Sample.strictTurns _)
      t hMem records outcome hAppends hReason
    rw [hLimit, hCount] at hSame
    cases hSame
  · intro hAll
    rcases @successive_of_steps
        Sample.staleMessage.after.ledger
        (Sample.chargedSession
          [(Sample.responds, .trigger Sample.message)]
            ).ledger.length
        0 0 (by decide +kernel) (by decide +kernel) with
      ⟨before, first, between, second, hSuccessive, hFirst,
        hSecond⟩
    have hPlain :
        Sample.staleMessage.after.ledger.any
          Sample.isApprovalTrigger = false := by
      decide +kernel
    have hNext := hAll "session" _ _ Sample.staleMessage_run
      before first between second hSuccessive ?_
    · omega
    · apply Sample.not_resumesApproval
      rcases hSuccessive.split with ⟨after, hSplit⟩
      rw [List.any_eq_false] at hPlain ⊢
      intro record hMem
      apply hPlain record
      rw [hSplit]
      rcases List.mem_append.mp hMem with hEarly | hLate
      · exact List.mem_append_left _ hEarly
      · apply List.mem_append_right
        rcases List.mem_cons.mp hLate with hHead | hTail
        · exact List.mem_cons.mpr (.inl hHead)
        · exact List.mem_cons_of_mem _
            (List.mem_append_left _ hTail)

end RainEngine
