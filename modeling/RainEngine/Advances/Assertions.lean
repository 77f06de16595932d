import RainEngine.Kernel.Engine
import RainEngine.Kernel.HostRules

/-
  This file defines the proof rules of an advance: where an
  advance can stand, and what an assertion about each place
  has to satisfy for it to hold along every advance. A result
  about advances supplies the assertions and checks the rules.

  Key definitions include:
    * `OnHost`
    * `Stage`
    * `IsNote`
    * `BatchSource`
    * `Assertions`
    * `Rules`
    * `StepRules`
    * `Keeps`
    * `Ends`

  Key theorems include:
    * `OnHost.safe_append`
    * `OnHost.safe_newUuid`
    * `OnHost.safe_loadSession`
-/

namespace RainEngine

open Effects

------------------------------------------------------------
-- Machines Of The Host
------------------------------------------------------------

/- The machine answers as the host does, at most more rarely. -/
structure OnHost (M : Machine Op Answer World) : Prop where
  next : M.next = hostNext
  allowed : ∀ w op a, M.allowed w op a → hostAllowed w op a

theorem OnHost.host : OnHost host where
  next := rfl
  allowed := fun _ _ _ h => h

theorem OnHost.reliable : OnHost reliable where
  next := rfl
  allowed := fun _ _ _ h => h.1

/- The store may fail a request. -/
def StoreFails
    (M : Machine Op Answer World)
    (w : World) :
    Prop :=
  ∃ op, ∃ a : Answer op, M.allowed w op a ∧
    ¬StoreAnswered op a

/- The store may fail to load the session. -/
def LoadFails
    (M : Machine Op Answer World)
    (w : World) :
    Prop :=
  ∃ a : Answer .loadSession, M.allowed w .loadSession a ∧
    ¬StoreAnswered .loadSession a

theorem LoadFails.storeFails
    {M : Machine Op Answer World}
    {w : World}
    (hFails : LoadFails M w) :
    StoreFails M w := by
  rcases hFails with ⟨a, hAllowed, hAnswer⟩
  exact ⟨.loadSession, a, hAllowed, hAnswer⟩

theorem not_storeFails_reliable (w : World) :
    ¬StoreFails reliable w := by
  rintro ⟨op, a, hAllowed, hFails⟩
  exact hFails hAllowed.2

namespace World

/- The world after an identifier has been handed out. -/
def issue (w : World) (uuid : String) : World :=
  { w with issued := uuid :: w.issued }

/- The world after a projection has been cached. -/
def project (w : World) (snapshot : SessionSnapshot) : World :=
  { w with cache := some snapshot }

@[simp] theorem issue_ledger (w : World) (uuid : String) :
    (w.issue uuid).ledger = w.ledger :=
  rfl

@[simp] theorem issue_cache (w : World) (uuid : String) :
    (w.issue uuid).cache = w.cache :=
  rfl

@[simp] theorem issue_issued (w : World) (uuid : String) :
    (w.issue uuid).issued = uuid :: w.issued :=
  rfl

@[simp] theorem project_ledger
    (w : World)
    (snapshot : SessionSnapshot) :
    (w.project snapshot).ledger = w.ledger :=
  rfl

@[simp] theorem project_cache
    (w : World)
    (snapshot : SessionSnapshot) :
    (w.project snapshot).cache = some snapshot :=
  rfl

@[simp] theorem project_issued
    (w : World)
    (snapshot : SessionSnapshot) :
    (w.project snapshot).issued = w.issued :=
  rfl

end World

------------------------------------------------------------
-- Stages
------------------------------------------------------------

/-
  Where an advance stands. It looks at records it has read,
  works in a context, or has ended with an outcome. A flag
  tells whether its copy of the ledger is up to date with the
  plans and notes it has appended itself.
-/
inductive Stage where
  | viewing (fresh : Bool) (records : List SessionRecord)
  | acting (ready : Bool) (context : AgentContext)
  | finished (context : AgentContext) (outcome : OutcomeRecord)

namespace Stage

/- The stage after a record its copy does not hold. -/
def lag : Stage → Stage
| .viewing _ records => .viewing false records
| .acting _ context => .acting false context
| .finished context outcome => .finished context outcome

/- The stage after a record that its copy takes over. -/
def push
    (stage : Stage)
    (record : SessionRecord) :
    Stage :=
  match stage with
  | .viewing _ records => .viewing false records
  | .acting ready context => .acting ready (context.push record)
  | .finished context outcome =>
      .finished (context.push record) outcome

end Stage

/- Records that only document what an advance does. -/
def IsNote : SessionRecord → Prop
| .triggerIntent _ => True
| .kernelEvent _ => True
| .modelDecision _ => True
| .deliberation _ => True
| .delegation _ => True
| .providerUsage _ => True
| .providerCache _ => True
| .reflection _ => True
| .policyTuning _ => True
| .strategyPreference _ => True
| .toolPerformance _ => True
| .profilePatch _ => True
| .summary _ => True
| _ => False

/- The notes of an advance that has not ended yet. -/
def IsRemark : SessionRecord → Prop
| .triggerIntent _ => True
| .kernelEvent _ => True
| .modelDecision _ => True
| .deliberation _ => True
| .delegation _ => True
| .providerUsage _ => True
| .providerCache _ => True
| .summary _ => True
| _ => False

theorem IsRemark.isNote
    {record : SessionRecord}
    (hRemark : IsRemark record) :
    IsNote record := by
  cases record <;> trivial

/- Requests that leave the ledger and the cache alone. -/
def Op.Quiet : Op → Prop
| .loadSession => True
| .findOutcome _ => True
| .findPendingApproval _ => True
| .listRecords _ _ => True
| .getProjection => True
| .plan _ _ => True
| .newUuid => True
| .isCancelled _ => True
| .deadlineReached _ => True
| _ => False

/- The record is in the ledger or in the kernel's copy. -/
def Known
    (context : AgentContext)
    (w : World)
    (record : SessionRecord) :
    Prop :=
  record ∈ w.ledger ∨ record ∈ context.records

/- A due step stands in a plan of the records. -/
theorem duePlanStep_recorded
    {records : List SessionRecord}
    {plan : ExecutionPlanRecord}
    {action : AgentAction}
    (hDue : duePlanStep records = some (plan, action)) :
    .executionPlan plan ∈ records ∧
      plan.steps[plan.currentStepIndex]? = some action := by
  unfold duePlanStep at hDue
  rw [Option.bind_eq_some_iff] at hDue
  rcases hDue with ⟨active, hActive, hStep⟩
  rw [Option.map_eq_some_iff] at hStep
  rcases hStep with ⟨step, hGet, hEq⟩
  cases hEq
  refine ⟨?_, hGet⟩
  unfold activeExecutionPlan at hActive
  rw [List.findSomeRev?_eq_findSome?_reverse] at hActive
  rcases List.exists_of_findSome?_eq_some hActive with
    ⟨record, hMem, hFound⟩
  cases record with
  | executionPlan recorded =>
      dsimp only at hFound
      rw [Option.ite_none_left_eq_some] at hFound
      cases hFound.2
      exact List.mem_reverse.mp hMem
  | _ => cases hFound

/-
  Why the kernel runs a batch: a decision asks for it, a due
  plan step does, its graph is unfinished, or a human has
  approved it.
-/
inductive BatchSource
    (context : AgentContext)
    (w : World) :
    Nat → List PlannedSkillCall → Bool → Prop where
  | decided {step : Nat} {calls : List PlannedSkillCall}
      (hDecision :
        Known context w
          (.modelDecision ⟨step, .callSkills calls⟩)) :
      BatchSource context w step calls false
  | due (step : Nat) {plan : ExecutionPlanRecord}
      {calls : List PlannedSkillCall}
      (hDue :
        duePlanStep context.records =
          some (plan, .callSkills calls)) :
      BatchSource context w step calls false
  | unfinished {graph : ToolExecutionGraph}
      (hActive :
        activeToolExecutionGraph context.records =
          some graph) :
      BatchSource context w graph.step
        (graph.nodes.map ToolNode.toCall) true
  | approved
      {pending : PendingApprovalRecord}
      {resolution : ApprovalResolutionRecord}
      (hPending :
        Known context w (.pendingApproval pending))
      (hResolution :
        Known context w (.approvalResolution resolution))
      (hToken : resolution.resumeToken = pending.resumeToken)
      (hApproved : resolution.decision = .approved) :
      BatchSource context w pending.step pending.pendingCalls
        true

/- Approving a pending token lets its calls run. -/
theorem BatchSource.of_resolved
    {context : AgentContext}
    {w : World}
    {pending : PendingApprovalRecord}
    {resolution : ApprovalResolutionRecord}
    (hPending : .pendingApproval pending ∈ w.ledger)
    (hToken : resolution.resumeToken = pending.resumeToken)
    (hApproved : resolution.decision = .approved) :
    BatchSource context
      (w.append (.approvalResolution resolution))
      pending.step pending.pendingCalls true := by
  refine .approved (.inl ?_) (.inl ?_) hToken hApproved
  · exact List.mem_append_left _ hPending
  · exact List.mem_append_right _ (List.mem_singleton_self _)

------------------------------------------------------------
-- Assertions And Rules
------------------------------------------------------------

/-
  What is claimed of an advance: at each stage, of each
  request, of results waiting to be recorded, of the outcome
  returned, and when an error is thrown.
-/
structure Assertions where
  holds : Stage → World → Prop
  request : World → Op → Prop
  results :
    Bool → AgentContext → List ToolResultRecord → World → Prop
  returned : Option EngineOutcome → World → Prop
  thrown : World → Prop

/- The assertions hold along every advance of the engine. -/
structure Rules
    (M : Machine Op Answer World)
    (engine : AgentEngine)
    (A : Assertions) : Prop where
  -- requests that change no records
  quiet : ∀ {stage w op},
    A.holds stage w → op.Quiet → A.request w op
  issue : ∀ {stage w uuid},
    A.holds stage w → uuid ∉ w.issued →
      A.holds stage (w.issue uuid)
  lag : ∀ {stage w},
    A.holds stage w → A.holds stage.lag w
  -- notes
  note : ∀ {stage w record},
    A.holds stage w → IsNote record →
      A.request w (.append record)
  noted : ∀ {stage w record},
    A.holds stage w → IsNote record →
      A.holds stage.lag (w.append record) ∧
        A.holds (stage.push record) (w.append record)
  -- reading the ledger
  fresh : ∀ {flag records w},
    A.holds (.viewing flag records) w →
      A.holds (.viewing true w.ledger) w
  stale : ∀ {flag records w},
    A.holds (.viewing flag records) w → StoreFails M w →
      A.holds (.viewing true records) w
  summarize : ∀ {flag records w request},
    A.holds (.viewing flag records) w →
      A.request w (.generateAction none request)
  propose : ∀ {flag records w uuid} (plan : ExecutionPlanRecord),
    A.holds (.viewing flag records) w → uuid ∉ w.issued →
      plan.planId = "plan-" ++ uuid →
      plan.currentStepIndex = 0 → plan.completedAt = false →
        A.request (w.issue uuid)
            (.append (.executionPlan plan)) ∧
          A.holds (.viewing false records)
            ((w.issue uuid).append (.executionPlan plan))
  -- the single step
  ask : ∀ {context w timeoutMs request},
    A.holds (.acting true context) w →
      A.request w (.generateAction (some timeoutMs) request)
  planStep : ∀ {context w plan action},
    A.holds (.acting true context) w →
      duePlanStep context.records = some (plan, action) →
        A.request w (.append (.executionPlan plan.next)) ∧
          A.holds (.acting false context)
            (w.append (.executionPlan plan.next))
  -- approvals
  await : ∀ {ready context w pending},
    A.holds (.acting ready context) w →
      pending.triggerId = context.metadata.triggerId →
        A.request w (.append (.pendingApproval pending)) ∧
          A.holds
            (.acting ready
              (context.push (.pendingApproval pending)))
            (w.append (.pendingApproval pending))
  resolve : ∀ {context w pending}
    (resolution : ApprovalResolutionRecord),
    A.holds (.acting true context) w →
      .pendingApproval pending ∈ w.ledger →
      resolution.resumeToken = pending.resumeToken →
        A.request w
            (.append (.approvalResolution resolution)) ∧
          A.holds (.acting true context)
            (w.append (.approvalResolution resolution))
  reject : ∀ {context w calls},
    A.holds (.acting true context) w →
      A.results true context (rejectedBatch calls).results w
  -- batches and their results
  batch : ∀ {ready context w step calls override},
    A.holds (.acting ready context) w →
      BatchSource context w step calls override →
        Safe M A.request
          (fun r w' =>
            match r with
            | .executed batch =>
                A.results ready context batch.results w'
            | .suspended _ _ _ =>
                A.holds (.acting ready context) w')
          (fun _ w' => A.thrown w')
          (executePlannedCalls engine context step calls
            override) w
  result : ∀ {ready context result rest w},
    A.results ready context (result :: rest) w →
      A.request w (.append (.toolResult result)) ∧
        A.results ready (context.pushToolResult result) rest
          (w.append (.toolResult result))
  recorded : ∀ {ready context w},
    A.results ready context [] w →
      A.holds (.acting ready context) w
  lostResult : ∀ {ready context results w stepsExecuted error},
    A.results ready context results w → StoreFails M w →
      A.thrown w ∧
        A.returned
          (some (storageFailureOutcome
            context.metadata.triggerId stepsExecuted error))
          w
  -- the end of the advance
  outcome : ∀ {ready context w outcome},
    A.holds (.acting ready context) w →
      outcome.triggerId = context.metadata.triggerId →
      outcome.idempotencyKey =
        context.metadata.idempotencyKey →
        A.request w (.append (.outcome outcome)) ∧
          A.holds
            (.finished (context.push (.outcome outcome))
              outcome)
            (w.append (.outcome outcome))
  lostOutcome : ∀ {ready context w outcome},
    A.holds (.acting ready context) w →
      outcome.triggerId = context.metadata.triggerId →
      outcome.idempotencyKey =
        context.metadata.idempotencyKey →
      StoreFails M w →
        A.holds
          (.finished (context.push (.outcome outcome)) outcome)
          w
  project : ∀ {context outcome w snapshot},
    A.holds (.finished context outcome) w →
      snapshot.records = context.records →
        A.request w (.setProjection snapshot) ∧
          A.holds (.finished context outcome)
            (w.project snapshot)
  done : ∀ {context outcome w},
    A.holds (.finished context outcome) w →
      A.returned (some (.fromRecord outcome)) w
  progress : ∀ {ready context w},
    A.holds (.acting ready context) w → A.returned none w
  failed : ∀ {ready context w stepsExecuted error},
    A.holds (.acting ready context) w → StoreFails M w →
      A.returned
        (some (storageFailureOutcome
          context.metadata.triggerId stepsExecuted error)) w
  thrown : ∀ {stage w},
    A.holds stage w → StoreFails M w → A.thrown w

/-
  The assertions hold along every advance of the engine, with
  one rule for the way an advance ends with an outcome.
-/
structure StepRules
    (M : Machine Op Answer World)
    (engine : AgentEngine)
    (A : Assertions) : Prop where
  -- requests that change no records
  quiet : ∀ {stage w op},
    A.holds stage w → op.Quiet → A.request w op
  issue : ∀ {stage w uuid},
    A.holds stage w → uuid ∉ w.issued →
      A.holds stage (w.issue uuid)
  lag : ∀ {stage w},
    A.holds stage w → A.holds stage.lag w
  -- remarks
  note : ∀ {stage w record},
    A.holds stage w → IsRemark record →
      A.request w (.append record)
  noted : ∀ {stage w record},
    A.holds stage w → IsRemark record →
      A.holds (stage.push record) (w.append record)
  -- the context does not keep a deliberation
  deliberated : ∀ {ready context w record},
    A.holds (.acting ready context) w →
      A.holds (.acting false context)
        (w.append (.deliberation record))
  -- reading the ledger
  fresh : ∀ {flag records w},
    A.holds (.viewing flag records) w →
      A.holds (.viewing true w.ledger) w
  stale : ∀ {flag records w},
    A.holds (.viewing flag records) w → LoadFails M w →
      A.holds (.viewing true records) w
  summarize : ∀ {flag records w request},
    A.holds (.viewing flag records) w →
      A.request w (.generateAction none request)
  propose : ∀ {flag records w uuid} (plan : ExecutionPlanRecord),
    A.holds (.viewing flag records) w → uuid ∉ w.issued →
      plan.planId = "plan-" ++ uuid →
      plan.currentStepIndex = 0 → plan.completedAt = false →
        A.request (w.issue uuid)
            (.append (.executionPlan plan)) ∧
          A.holds (.viewing false records)
            ((w.issue uuid).append (.executionPlan plan))
  -- the single step
  ask : ∀ {context w timeoutMs request},
    A.holds (.acting true context) w →
      A.request w (.generateAction (some timeoutMs) request)
  planStep : ∀ {context w plan action},
    A.holds (.acting true context) w →
      duePlanStep context.records = some (plan, action) →
        A.request w (.append (.executionPlan plan.next)) ∧
          A.holds (.acting false context)
            (w.append (.executionPlan plan.next))
  -- approvals
  await : ∀ {ready context w pending},
    A.holds (.acting ready context) w →
      pending.triggerId = context.metadata.triggerId →
        A.request w (.append (.pendingApproval pending)) ∧
          A.holds
            (.acting ready
              (context.push (.pendingApproval pending)))
            (w.append (.pendingApproval pending))
  resolve : ∀ {context w pending}
    (resolution : ApprovalResolutionRecord),
    A.holds (.acting true context) w →
      .pendingApproval pending ∈ w.ledger →
      resolution.resumeToken = pending.resumeToken →
        A.request w
            (.append (.approvalResolution resolution)) ∧
          A.holds (.acting true context)
            (w.append (.approvalResolution resolution))
  reject : ∀ {context w calls},
    A.holds (.acting true context) w →
      A.results true context (rejectedBatch calls).results w
  -- batches and their results
  batch : ∀ {ready context w step calls override},
    A.holds (.acting ready context) w →
      BatchSource context w step calls override →
        Safe M A.request
          (fun r w' =>
            match r with
            | .executed batch =>
                A.results ready context batch.results w'
            | .suspended _ _ _ =>
                A.holds (.acting ready context) w')
          (fun _ w' => A.thrown w')
          (executePlannedCalls engine context step calls
            override) w
  result : ∀ {ready context result rest w},
    A.results ready context (result :: rest) w →
      A.request w (.append (.toolResult result)) ∧
        A.results ready (context.pushToolResult result) rest
          (w.append (.toolResult result))
  recorded : ∀ {ready context w},
    A.results ready context [] w →
      A.holds (.acting ready context) w
  lostResult : ∀ {ready context results w stepsExecuted error},
    A.results ready context results w → StoreFails M w →
      A.thrown w ∧
        A.returned
          (some (storageFailureOutcome
            context.metadata.triggerId stepsExecuted error))
          w
  -- the end of the advance
  finish : ∀ {ready context w} stopReason response detail
    stepsExecuted resumeToken,
    A.holds (.acting ready context) w →
      Safe M A.request
        (fun outcome w' => A.returned (some outcome) w')
        (fun _ w' => A.thrown w')
        (finish engine context stopReason response detail
          stepsExecuted resumeToken) w
  progress : ∀ {ready context w},
    A.holds (.acting ready context) w → A.returned none w
  failed : ∀ {ready context w stepsExecuted error},
    A.holds (.acting ready context) w → StoreFails M w →
      A.returned
        (some (storageFailureOutcome
          context.metadata.triggerId stepsExecuted error)) w
  thrown : ∀ {stage w},
    A.holds stage w → StoreFails M w → A.thrown w

------------------------------------------------------------
-- Requests On A Machine Of The Host
------------------------------------------------------------

section Requests

variable {M : Machine Op Answer World}
variable {P : World → Op → Prop}
variable {R : EngineError → World → Prop}
variable {w : World}

/- A quiet request hands out an identifier or does nothing. -/
theorem hostNext_of_quiet
    {op : Op}
    {a : Answer op}
    (hQuiet : op.Quiet)
    (hOther : op ≠ .newUuid) :
    hostNext w op a = w := by
  cases op <;>
    first | rfl | exact hQuiet.elim | exact absurd rfl hOther

theorem OnHost.safe_quiet
    (op : Op)
    {Q : Answer op → World → Prop}
    (hHost : OnHost M)
    (hQuiet : op.Quiet)
    (hOther : op ≠ .newUuid)
    (hRequest : P w op)
    (hAnswer : ∀ a, M.allowed w op a → Q a w) :
    Safe M P Q R (Program.perform op) w := by
  refine ⟨hRequest, ?_⟩
  intro a hAllowed
  rw [hHost.next, hostNext_of_quiet hQuiet hOther]
  exact hAnswer a hAllowed

theorem OnHost.safe_newUuid
    {Q : String → World → Prop}
    (hHost : OnHost M)
    (hRequest : P w .newUuid)
    (hFresh : ∀ uuid, uuid ∉ w.issued → Q uuid (w.issue uuid)) :
    Safe M P Q R newUuid w := by
  refine ⟨hRequest, ?_⟩
  intro uuid hAllowed
  rw [hHost.next]
  exact hFresh uuid (hHost.allowed _ _ _ hAllowed)

theorem OnHost.safe_append
    {Q : Except MemoryError Unit → World → Prop}
    {record : SessionRecord}
    (hHost : OnHost M)
    (hRequest : P w (.append record))
    (hStored : Q (.ok ()) (w.append record))
    (hFailed :
      ∀ error, StoreFails M w → Q (.error error) w) :
    Safe M P Q R (append record) w := by
  refine ⟨hRequest, ?_⟩
  intro a hAllowed
  rw [hHost.next]
  cases a with
  | ok _ => exact hStored
  | error error =>
      exact hFailed error ⟨_, _, hAllowed, nofun⟩

theorem OnHost.safe_appendOrFail
    {Q : Unit → World → Prop}
    {record : SessionRecord}
    (hHost : OnHost M)
    (hRequest : P w (.append record))
    (hStored : Q () (w.append record))
    (hFailed :
      ∀ error, StoreFails M w → R (.memory error) w) :
    Safe M P Q R (appendOrFail record) w := by
  unfold RainEngine.appendOrFail
  rw [Safe.bind_iff]
  refine hHost.safe_append hRequest hStored ?_
  intro error hFails
  exact hFailed error hFails

/- The store answers with the ledger, or fails. -/
theorem OnHost.safe_loadSession
    {Q : Except MemoryError SessionSnapshot → World → Prop}
    (hHost : OnHost M)
    (hRequest : P w .loadSession)
    (hLoaded : Q (.ok w.snapshot) w)
    (hFailed :
      ∀ error, LoadFails M w → Q (.error error) w) :
    Safe M P Q R (Program.perform Op.loadSession) w := by
  refine hHost.safe_quiet .loadSession trivial nofun
    hRequest ?_
  intro a hAllowed
  cases a with
  | ok snapshot =>
      have hSnapshot : snapshot = w.snapshot :=
        hHost.allowed _ _ _ hAllowed
      subst hSnapshot
      exact hLoaded
  | error error =>
      exact hFailed error ⟨_, hAllowed, nofun⟩

end Requests

/- A program that keeps a context in step with a stage. -/
def Keeps
    (M : Machine Op Answer World)
    (A : Assertions)
    (stage : AgentContext → Stage)
    (p : EngineM AgentContext)
    (w : World) :
    Prop :=
  Safe M A.request
    (fun context w' => A.holds (stage context) w')
    (fun _ w' => A.thrown w') p w

/- A program that ends an advance. -/
def Ends
    (M : Machine Op Answer World)
    (A : Assertions)
    (p : EngineM AdvanceResult)
    (w : World) :
    Prop :=
  Safe M A.request
    (fun result w' => A.returned result.outcome w')
    (fun _ w' => A.thrown w') p w

end RainEngine
