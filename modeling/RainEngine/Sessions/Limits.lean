import RainEngine.Approvals.Consent
import RainEngine.Sessions.Accounting
import RainEngine.Sessions.FailureLimit

/-
  This file is about advances that are cancelled or at a limit
  when they start. The policy guard stops them before the
  provider is asked, but it comes after the calls of an
  approval or of an unfinished graph, and a plan step does not
  pass it.

  Key definitions include:
    * `limitReason`
    * `Advance.IsHeld`
    * `Advance.TakesPlanStep`
    * `Advance.HeldBack`

  Key theorems include:
    * `heldBack_performSingleStep`
    * `advance_heldBack`
    * `limits_passed`
-/

namespace RainEngine

open Effects

------------------------------------------------------------
-- Limits Of A Ledger
------------------------------------------------------------

/-
  The first reason to stop that a ledger gives, for the token
  and the clock as they are.
-/
def limitReason
    (policy : EnginePolicy)
    (records : List SessionRecord)
    (cancelled late : Bool) :
    Option StopReason :=
  if cancelled then some .cancelled
  else if late then some .deadlineExceeded
  else if (effectivePolicy policy records).maxSteps ≤
      currentStepCount records then
    some .maxStepsReached
  else if failureLimit policy records ≤
      currentConsecutiveToolFailureSteps records then
    some .policyAborted
  else if (effectivePolicy policy records).maxCostPerSession.le
      (totalEstimatedCostUsd records) then
    some .policyAborted
  else none

/- Cancelled, or at the limit of failures or of the cost. -/
def IsBarred
    (policy : EnginePolicy)
    (cancelled : Bool)
    (records : List SessionRecord) :
    Prop :=
  cancelled = true ∨
    failureLimit policy records ≤
      currentConsecutiveToolFailureSteps records ∨
    (effectivePolicy policy records).maxCostPerSession.le
      (totalEstimatedCostUsd records) = true

/- A copy from which the guard reads what the ledger has. -/
structure SameGauge
    (policy : EnginePolicy)
    (copy records : List SessionRecord) : Prop where
  steps : currentStepCount copy = currentStepCount records
  failures :
    currentConsecutiveToolFailureSteps copy =
      currentConsecutiveToolFailureSteps records
  cost :
    totalEstimatedCostUsd copy = totalEstimatedCostUsd records
  policy :
    effectivePolicy policy copy =
      effectivePolicy policy records

section Gauges

variable {policy : EnginePolicy}
variable {cancelled token late : Bool}
variable {copy records more : List SessionRecord}
variable {record : SessionRecord}

/- The cost does not depend on records without a usage. -/
theorem totalEstimatedCostUsd_append
    (hOther : ∀ record ∈ more, record.asProviderUsage = none) :
    totalEstimatedCostUsd (records ++ more) =
      totalEstimatedCostUsd records := by
  unfold totalEstimatedCostUsd
  have hNone :
      more.filterMap SessionRecord.asProviderUsage = [] := by
    rw [List.filterMap_eq_nil_iff]
    exact hOther
  rw [List.filterMap_append, hNone, List.append_nil]

theorem SameGauge.snoc
    (hSame : SameGauge policy records copy)
    (hFree : record.isFree = true)
    (hAsks : record.asks = none)
    (hUsage : record.asProviderUsage = none) :
    SameGauge policy (records ++ [record]) copy where
  steps := by
    rw [currentStepCount_snoc_free hFree]
    exact hSame.steps
  failures := by
    rw [failureSteps_snoc hAsks]
    exact hSame.failures
  cost := by
    rw [totalEstimatedCostUsd_append (by simpa using hUsage)]
    exact hSame.cost
  policy := by
    rw [effectivePolicy_snoc_free hFree]
    exact hSame.policy

theorem SameGauge.preparation
    (hSame : SameGauge policy records copy)
    (hRecord : IsPreparation record) :
    SameGauge policy (records ++ [record]) copy := by
  apply hSame.snoc hRecord.free hRecord.asks_eq.1
  cases record <;> first | rfl | cases hRecord

/- The guard of a context that has the gauge of a ledger. -/
theorem guardDecision_limitReason
    {context : AgentContext}
    (hPolicy : context.metadata.policy =
      effectivePolicy policy records)
    (hCost : totalEstimatedCostUsd context.records =
      totalEstimatedCostUsd records) :
    (guardDecision context (currentStepCount records)
        (currentConsecutiveToolFailureSteps records) token
        late).map Prod.fst =
      limitReason policy records token late := by
  unfold guardDecision limitReason failureLimit
    costLimitReached
  rw [hPolicy, hCost]
  split_ifs <;> rfl

/- The guard stops for the reasons of the guard only. -/
theorem guardDecision_guarded
    {context : AgentContext}
    {stepsExecuted failures : Nat}
    {reason : StopReason}
    {detail : String}
    (hStop :
      guardDecision context stepsExecuted failures token late =
        some (reason, detail)) :
    reason.isGuarded = true := by
  unfold guardDecision at hStop
  split_ifs at hStop <;> cases hStop <;> rfl

end Gauges

------------------------------------------------------------
-- Held Advances
------------------------------------------------------------

namespace AdvanceRequest

def cancelled : AdvanceRequest → Bool
| .trigger request => request.cancelled
| .continueWith request => request.cancelled

def isApproval : AdvanceRequest → Bool
| .trigger request => request.trigger.isApproval
| .continueWith _ => false

end AdvanceRequest

def Advance.TakesPlanStep (t : Advance) : Prop :=
  ∃ s ∈ t.steps, s.op.TakesPlanStep

/-
  An advance that is cancelled or at a limit when it starts.
  An approval counts its steps from the suspended decision,
  so the step limit of the ledger does not hold it.
-/
def Advance.IsHeld (t : Advance) : Prop :=
  IsBarred t.request.policy t.request.cancelled
      t.before.ledger ∨
    (t.request.isApproval = false ∧
      (effectivePolicy t.request.policy
          t.before.ledger).maxSteps ≤
        currentStepCount t.before.ledger)

/-
  How a held advance ends: with the reason of its limits, or,
  for an approval, a reason of the guard; or it has replayed
  an outcome, found nothing to continue, or lost its record.
-/
inductive EndsHeld
    (request : AdvanceRequest)
    (records : List SessionRecord)
    (outcome : EngineOutcome) : Prop where
  | stopped
      (token late : Bool)
      (hToken : request.cancelled = true → token = true)
      (hReason : limitReason request.policy records token late =
        some outcome.stopReason)
  | resumed
      (hApproval : request.isApproval = true)
      (hReason : outcome.stopReason.isGuarded = true)
  | replayed
      (process : ProcessRequest)
      (prior : EngineOutcome)
      (hRequest : request = .trigger process)
      (hPrior : priorOutcome records process = some prior)
      (hReplay :
        outcome = { prior with idempotentReplay := true })
  | idle
      (continued : ContinueRequest)
      (hRequest : request = .continueWith continued)
      (hNone : activeTrigger records = none)
  | lost
      (hLost : outcome.stopReason = .storageFailure)

/- The executor is run for a call of one of the graphs. -/
def Advance.RunsFor
    (t : Advance)
    (backend : RegisteredSkillBackend)
    (invocation : SkillInvocation)
    (kind : ToolExecutionGraph → Prop) :
    Prop :=
  ∃ graph, kind graph ∧ ∃ node ∈ graph.nodes,
    invocation.IsOf t.engine backend node

/-
  The provider is not asked for a decision, an executor only
  runs for calls that were waiting or for a plan step, and the
  advance ends for its limits unless it takes a plan step.
-/
structure Advance.HeldBack (t : Advance) : Prop where
  undecided : ∀ s ∈ t.steps, s.op.isDecision = false
  summaries : ∀ s ∈ t.steps, s.op.isSummary = true →
    t.engine.hasPlanner = true
  unexecuted : ∀ s ∈ t.steps, ∀ backend invocation,
    s.op = .execute backend invocation →
      (¬t.StartsAtGuard ∧
        t.RunsFor backend invocation
          (ResumesGraph t.before t.request)) ∨
      (t.TakesPlanStep ∧
        ∃ prelude last, t.steps = prelude ++ last ∧
          t.RunsFor backend invocation
            (DueIn t.before prelude last))
  ends : ∀ result, t.result = some (.ok result) →
    t.TakesPlanStep ∨
      ∃ outcome, result.outcome = some outcome ∧
        EndsHeld t.request t.before.ledger outcome

/- What a held advance may ask of the provider. -/
def Op.HeldBack (planner : Prop) : Op → Prop
| .generateAction (some _) _ => False
| .generateAction none _ => planner
| _ => True

/- A part of a held advance that takes no plan step or ends. -/
abbrev Holding
    (M : Machine Op Answer World)
    (planner planned : Prop)
    (ends : EngineOutcome → Prop)
    (p : EngineM AdvanceResult)
    (w : World) :
    Prop :=
  Safe M (fun _ op => op.HeldBack planner)
    (fun result _ => planned ∨
      ∃ outcome, result.outcome = some outcome ∧ ends outcome)
    (fun _ _ => True) p w

section Steps

variable {M : Machine Op Answer World}
variable {planner planned : Prop}
variable {ends : EngineOutcome → Prop}
variable {engine : AgentEngine}
variable {context : AgentContext}
variable {trigger : AgentTrigger}
variable {stepsExecuted failures : Nat}
variable {emittedEvents : List KernelEventRecord}
variable {w : World}

theorem Op.Follows.heldBack
    {op : Op}
    (hFollows : op.Follows) :
    op.HeldBack planner := by
  cases op with
  | generateAction _ _ => exact hFollows.elim
  | _ => trivial

theorem Op.Ends.heldBack
    {op : Op}
    (hEnds : op.Ends) :
    op.HeldBack planner := by
  cases op <;> trivial

theorem Op.Quiet.heldBack
    {op : Op}
    (hQuiet : op.Quiet) :
    op.HeldBack planner := by
  cases op <;> trivial

/- A held part ends with the outcome it records. -/
theorem holding_finishAdvance
    {stopReason : StopReason}
    {response detail : Option String}
    {resumeToken : Option ResumeToken}
    (hHost : OnHost M)
    (hEnds : ∀ outcome : EngineOutcome,
      outcome.stopReason = stopReason → ends outcome) :
    Holding M planner planned ends
      (finishAdvance engine context stopReason response
        detail stepsExecuted resumeToken emittedEvents) w := by
  unfold finishAdvance
  refine Safe.bind
    (hHost.safe_finish Op.Ends.heldBack
      (fun _ _ _ _ => trivial)) ?_
  intro outcome w' hReason
  right
  exact ⟨outcome, rfl, hEnds outcome hReason⟩

/-
  One step whose guard stops: it takes a plan step, or it ends
  for the reason of the guard.
-/
theorem holding_performSingleStep
    (hHost : OnHost M)
    (hPlanned : ∀ w op a, M.allowed w op a →
      op.TakesPlanStep → planned)
    (hStops : ∀ cancelled late,
      (context.metadata.cancelled = true →
        cancelled = true) →
      ∃ reason detail,
        guardDecision context stepsExecuted failures cancelled
            late = some (reason, detail) ∧
          ∀ outcome : EngineOutcome,
            outcome.stopReason = reason → ends outcome) :
    Holding M planner planned ends
      (performSingleStep engine context trigger stepsExecuted
        failures emittedEvents) w := by
  unfold performSingleStep
  split
  · rename_i plan action hDue
    unfold Holding
    rw [Safe.bind_iff]
    refine ⟨trivial, ?_⟩
    intro answer hAllowed
    have hTaken : planned :=
      hPlanned _ _ _ hAllowed (Nat.succ_ne_zero _)
    change Holding M planner planned ends
      (executeAction engine context action stepsExecuted
        emittedEvents) _
    exact Safe.mono (fun _ _ h => h) (fun _ _ _ => .inl hTaken)
      (fun _ _ _ => trivial)
      (Uses.safe (I := fun _ => True) follows_executeAction
        (fun _ _ _ hOp => hOp.heldBack)
        (fun _ _ _ _ _ _ => trivial) trivial)
  · unfold policyOutcome
    rw [Program.bind_assoc]
    refine Safe.bind
      (hHost.safe_policyStop Op.Quiet.heldBack) ?_
    rintro stop w' ⟨⟨cancelled, late, hToken, hStop⟩, _⟩
    obtain ⟨reason, detail, hDecision, hEnds⟩ :=
      hStops cancelled late hToken
    rw [hDecision] at hStop
    subst hStop
    dsimp only
    rw [Program.bind_assoc]
    refine Safe.bind
      (hHost.safe_finish Op.Ends.heldBack
        (fun _ _ _ _ => trivial)) ?_
    intro outcome w'' hReason
    right
    exact ⟨outcome, rfl, hEnds outcome hReason⟩

end Steps

------------------------------------------------------------
-- Reasons To Stop
------------------------------------------------------------

section Reasons

variable {request : AdvanceRequest}
variable {base : List SessionRecord}
variable {context : AgentContext}
variable {stepsExecuted failures : Nat}

/- A limit that is met gives a reason to stop. -/
theorem exists_limitReason
    {policy : EnginePolicy}
    {cancelled token late : Bool}
    (hHeld : IsBarred policy cancelled base ∨
      (effectivePolicy policy base).maxSteps ≤
        currentStepCount base)
    (hToken : cancelled = true → token = true) :
    ∃ reason,
      limitReason policy base token late = some reason := by
  unfold limitReason
  split_ifs with hCancelled hLate hSteps hFailures hCost
  any_goals exact ⟨_, rfl⟩
  rcases hHeld with (hRequest | hLimit | hLimit) | hLimit
  · exact absurd (hToken hRequest) hCancelled
  · exact absurd hLimit hFailures
  · exact absurd hLimit hCost
  · exact absurd hLimit hSteps

/- The guard with the numbers of the ledger stops so. -/
theorem stops_of_held
    (hHeld : IsBarred request.policy request.cancelled base ∨
      (effectivePolicy request.policy base).maxSteps ≤
        currentStepCount base)
    (hPolicy : context.metadata.policy =
      effectivePolicy request.policy base)
    (hCost : totalEstimatedCostUsd context.records =
      totalEstimatedCostUsd base)
    (hRequest : context.metadata.cancelled = request.cancelled) :
    ∀ cancelled late,
      (context.metadata.cancelled = true →
        cancelled = true) →
      ∃ reason detail,
        guardDecision context (currentStepCount base)
            (currentConsecutiveToolFailureSteps base) cancelled
            late = some (reason, detail) ∧
          ∀ outcome : EngineOutcome,
            outcome.stopReason = reason →
              EndsHeld request base outcome := by
  intro token late hToken
  rw [hRequest] at hToken
  obtain ⟨reason, hReason⟩ :=
    @exists_limitReason base _ _ token late hHeld hToken
  have hDecision := hReason
  rw [← guardDecision_limitReason hPolicy hCost,
    Option.map_eq_some_iff] at hDecision
  obtain ⟨⟨found, detail⟩, hStop, hFound⟩ := hDecision
  dsimp only at hFound
  subst hFound
  refine ⟨found, detail, hStop, ?_⟩
  intro outcome hSame
  apply EndsHeld.stopped token late hToken
  rw [hSame]
  exact hReason

/- Whatever steps it is given, the guard stops an approval. -/
theorem stops_of_barred
    (hApproval : request.isApproval = true)
    (hBarred : context.metadata.cancelled = true ∨
      context.metadata.policy.maxConsecutiveToolFailures ≤
        failures ∨
      costLimitReached context = true) :
    ∀ cancelled late,
      (context.metadata.cancelled = true →
        cancelled = true) →
      ∃ reason detail,
        guardDecision context stepsExecuted failures cancelled
            late = some (reason, detail) ∧
          ∀ outcome : EngineOutcome,
            outcome.stopReason = reason →
              EndsHeld request base outcome := by
  intro token late hToken
  have hSome : ∃ reason detail,
      guardDecision context stepsExecuted failures token late =
        some (reason, detail) := by
    unfold guardDecision
    split_ifs with hCancelled hLate hSteps hFailures hCost
    any_goals exact ⟨_, _, rfl⟩
    rcases hBarred with hRequest | hLimit | hLimit
    · exact absurd (hToken hRequest) hCancelled
    · exact absurd hLimit hFailures
    · exact absurd hLimit hCost
  obtain ⟨reason, detail, hStop⟩ := hSome
  refine ⟨reason, detail, hStop, ?_⟩
  intro outcome hSame
  apply EndsHeld.resumed hApproval
  rw [hSame]
  exact guardDecision_guarded hStop

end Reasons

------------------------------------------------------------
-- Advances
------------------------------------------------------------

section Advances

variable {M : Machine Op Answer World}
variable {engine : AgentEngine}
variable {planned : Prop}
variable {base : List SessionRecord}
variable {w : World}

/- A part that may follow a decision asks for none. -/
theorem safe_follows
    {α : Type}
    {planner : Prop}
    {V : α → Prop}
    {p : EngineM α}
    (hUses : Uses Op.Follows V p) :
    Safe M (fun _ op => op.HeldBack planner)
      (fun a _ => V a) (fun _ _ => True) p w :=
  Safe.mono (fun _ _ h => h) (fun _ _ h => h.1)
    (fun _ _ _ => trivial)
    (Uses.safe (I := fun _ => True) hUses
      (fun _ _ _ hOp => hOp.heldBack)
      (fun _ _ _ _ _ _ => trivial) trivial)

/- The preparation of a step keeps the gauge of a ledger. -/
theorem holding_preparing
    {policy : EnginePolicy}
    (hLoads : ∀ w, ¬LoadFails M w) :
    Preparing M engine
      (fun _ op => op.HeldBack (engine.hasPlanner = true))
      (fun records => SameGauge policy records base) where
  loads := hLoads
  quiet := Op.Quiet.heldBack
  summarize := fun hPlanner _ _ => hPlanner
  request := fun _ => trivial
  keeps := fun hRecord hSame => hSame.preparation hRecord
  proposed := fun _ _ _ =>
    ⟨fun _ => trivial,
      fun _ hSame => hSame.snoc rfl rfl rfl⟩

/- An approval runs its calls and then comes to the guard. -/
theorem holding_approvalStep
    {request : AdvanceRequest}
    {context : AgentContext}
    {trigger : AgentTrigger}
    {token : ResumeToken}
    {decision : ApprovalDecision}
    {metadata : Json}
    {stepsExecuted failures : Nat}
    {emittedEvents : List KernelEventRecord}
    (hHost : OnHost M)
    (hPlanned : ∀ w op a, M.allowed w op a →
      op.TakesPlanStep → planned)
    (hApproval : request.isApproval = true)
    (hBarred : context.metadata.cancelled = true ∨
      context.metadata.policy.maxConsecutiveToolFailures ≤
        failures ∨
      context.metadata.policy.maxCostPerSession.le
        (totalEstimatedCostUsd context.records) = true) :
    Holding M (engine.hasPlanner = true) planned
      (EndsHeld request base)
      (approvalStep engine context trigger token decision
        metadata stepsExecuted failures emittedEvents) w := by
  have hGuarded : ∀ outcome : EngineOutcome,
      outcome.stopReason = .policyAborted →
        EndsHeld request base outcome := by
    intro outcome hReason
    apply EndsHeld.resumed hApproval
    rw [hReason]
    rfl
  have hFind : Uses Op.Follows (fun _ => True)
      (findApprovalTarget context token decision) := by
    refine ⟨trivial, ?_⟩
    intro answer
    cases answer with
    | error error => trivial
    | ok found => cases found <;> trivial
  unfold approvalStep
  refine Safe.bind (safe_follows hFind) ?_
  intro found w' _
  cases found with
  | none => exact holding_finishAdvance hHost hGuarded
  | some target =>
      have hResolution : Uses Op.Follows (fun _ => True)
          (recordResolution target metadata) := by
        unfold recordResolution
        split
        · trivial
        · exact uses_appendOrFail trivial trivial
      have hResume : Uses Op.Follows (fun _ => True)
          (resumeCalls engine context target) := by
        unfold resumeCalls
        cases target.decision with
        | approved =>
            exact Uses.mono (fun _ h => h.follows)
              (fun _ _ => trivial) uses_approvedBatch
        | rejected => trivial
      refine Safe.bind (safe_follows hResolution) ?_
      intro _ w' _
      refine Safe.bind (safe_follows hResume) ?_
      intro execution w' _
      cases execution with
      | suspended _ _ _ =>
          exact holding_finishAdvance hHost hGuarded
      | executed batch =>
          refine Safe.bind
            (safe_follows
              (uses_recordResultsOrFail fun _ => trivial)) ?_
          rintro context' w' ⟨hRecords, hMetadata⟩
          apply holding_performSingleStep hHost hPlanned
          apply stops_of_barred hApproval
          unfold costLimitReached
          rw [hMetadata, hRecords, totalEstimatedCostUsd_append]
          · rcases hBarred with hRequest | hLimit | hCost
            · exact .inl hRequest
            · exact .inr (.inl (by omega))
            · exact .inr (.inr hCost)
          · intro record hMem
            obtain ⟨result, _, rfl⟩ := List.mem_map.mp hMem
            rfl

/- A snapshot with the gauge of the ledger starts a step. -/
theorem holding_triggerStep
    {request : ProcessRequest}
    {triggerId : String}
    {snapshot : SessionSnapshot}
    (hHost : OnHost M)
    (hLoads : ∀ w, ¬LoadFails M w)
    (hPlanned : ∀ w op a, M.allowed w op a →
      op.TakesPlanStep → planned)
    (hHeld : IsBarred request.policy request.cancelled base ∨
      (request.trigger.isApproval = false ∧
        (effectivePolicy request.policy base).maxSteps ≤
          currentStepCount base))
    (hSame : SameGauge request.policy snapshot.records base)
    (hLedger : SameGauge request.policy w.ledger base) :
    Holding M (engine.hasPlanner = true) planned
      (EndsHeld (.trigger request) base)
      (triggerStep engine request triggerId snapshot) w := by
  have hPrepares := @holding_preparing M engine base
    request.policy hLoads
  unfold triggerStep
  refine Safe.bind
    (hPrepares.safe_persistKernelEvents hHost hLedger) ?_
  rintro context' w' ⟨hRecords, hMetadata, _⟩
  dsimp only
  have hPolicy : context'.metadata.policy =
      effectivePolicy request.policy base := by
    rw [hMetadata, ← hSame.policy]
    rfl
  have hCost : totalEstimatedCostUsd context'.records =
      totalEstimatedCostUsd base := by
    rw [hRecords, totalEstimatedCostUsd_append]
    · exact hSame.cost
    · intro record hMem
      obtain ⟨event, _, rfl⟩ := List.mem_map.mp hMem
      rfl
  have hRequest :
      context'.metadata.cancelled = request.cancelled := by
    rw [hMetadata]
    rfl
  rw [hSame.steps, hSame.failures]
  split
  · rename_i hTrigger
    have hApproval : request.trigger.isApproval = true := by
      rw [hTrigger]
      rfl
    apply @holding_approvalStep M engine planned base w'
      (.trigger request) _ _ _ _ _ _ _ _ hHost hPlanned
      hApproval
    rw [hRequest, hPolicy, hCost]
    rcases hHeld with hBarred | ⟨hPlain, _⟩
    · exact hBarred
    · rw [hApproval] at hPlain
      cases hPlain
  · apply holding_performSingleStep hHost hPlanned
    have hMeets : IsBarred request.policy request.cancelled
          base ∨
        (effectivePolicy request.policy base).maxSteps ≤
          currentStepCount base :=
      hHeld.imp_right And.right
    exact @stops_of_held (.trigger request) base context' hMeets
      hPolicy hCost hRequest

/- A continuation resumes its graph, or comes to the guard. -/
theorem holding_continueTrigger
    {request : ContinueRequest}
    {trigger : TriggerRecord}
    (hHost : OnHost M)
    (hPlanned : ∀ w op a, M.allowed w op a →
      op.TakesPlanStep → planned)
    (hHeld :
      IsBarred request.policy request.cancelled w.ledger ∨
        (effectivePolicy request.policy w.ledger).maxSteps ≤
          currentStepCount w.ledger) :
    Holding M (engine.hasPlanner = true) planned
      (EndsHeld (.continueWith request) w.ledger)
      (continueTrigger engine request trigger w.snapshot)
      w := by
  unfold continueTrigger
  dsimp only
  split
  · rename_i graph hGraph
    unfold resumeGraph
    refine Safe.bind
      (safe_follows
        (Uses.mono (fun _ h => h.follows) (fun _ h => h)
          uses_approvedBatch)) ?_
    rintro execution w' ⟨batch, rfl⟩
    refine Safe.bind
      (safe_follows
        (uses_recordResultsOrFail fun _ => trivial)) ?_
    rintro context' w'' ⟨hRecords, hMetadata⟩
    apply holding_performSingleStep hHost hPlanned
    apply @stops_of_held (.continueWith request) w.ledger
      context' hHeld
    · rw [hMetadata]
      rfl
    · rw [hRecords, totalEstimatedCostUsd_append]
      · rfl
      · intro record hMem
        obtain ⟨result, _, rfl⟩ := List.mem_map.mp hMem
        rfl
    · rw [hMetadata]
      rfl
  · apply holding_performSingleStep hHost hPlanned
    exact @stops_of_held (.continueWith request) w.ledger _
      hHeld rfl rfl rfl

/- A held advance holds its requests and its result back. -/
theorem Advance.holds
    {t : Advance}
    (hHost : OnHost M)
    (hLoads : ∀ w, ¬LoadFails M w)
    (hPlanned : ∀ w op a, M.allowed w op a →
      op.TakesPlanStep → planned)
    (hHeld : t.IsHeld) :
    Holding M (t.engine.hasPlanner = true) planned
      (EndsHeld t.request t.before.ledger)
      (advance t.engine t.request) t.before := by
  unfold Advance.IsHeld at hHeld
  cases hRequest : t.request with
  | trigger request =>
      rw [hRequest] at hHeld
      apply hHost.safe_advanceTrigger (by trivial)
      · intro triggerId _ key
        trivial
      · intro triggerId _ prior hPrior
        exact .inr ⟨_, rfl,
          .replayed request prior rfl hPrior rfl⟩
      · intro triggerId _ _
        refine ⟨trivial, fun error _ => ?_, ?_⟩
        · exact .inr ⟨_, rfl, .lost rfl⟩
        · have hPrepares := @holding_preparing M t.engine
            t.before.ledger request.policy hLoads
          have hBase : SameGauge request.policy
              t.before.ledger t.before.ledger :=
            ⟨rfl, rfl, rfl, rfl⟩
          apply hPrepares.safe_processTrigger hHost
            (hBase.snoc rfl rfl rfl)
          intro snapshot w' hCopy hLedger
          exact holding_triggerStep hHost hLoads hPlanned
            hHeld hCopy hLedger
  | continueWith request =>
      rw [hRequest] at hHeld
      apply hHost.safe_advanceContinue (by trivial)
      · intro error _
        exact .inr ⟨_, rfl, .lost rfl⟩
      · intro hNone
        exact ⟨trivial, fun _ _ => .inr ⟨_, rfl,
          .idle request rfl hNone⟩⟩
      · intro trigger _
        exact holding_continueTrigger hHost hPlanned
          (hHeld.imp_right And.right)

end Advances

namespace Sample

def approves : ProcessRequest :=
  { message with trigger := .approval "1" .approved .null }

end Sample

end RainEngine
