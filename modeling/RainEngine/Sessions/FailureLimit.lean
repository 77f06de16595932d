import RainEngine.Advances.Contract
import RainEngine.Advances.Preparation
import RainEngine.Advances.Sequels
import RainEngine.Improvement.Tunings
import RainEngine.Sessions.FailureSteps

/-
  This file is about the limit on failed steps. The guard of
  an advance that has not resumed any calls compares it with
  the count of its ledger, and that count is the number of
  failed batches in a row if every batch has been recorded for
  a decision.

  Key definitions include:
    * `Compares`
    * `Advance.StartsAtGuard`
    * `FailureStepsCounted`

  Key theorems include:
    * `comparing_advance`
    * `run_failure_steps_counted`
    * `plan_batch_not_counted`
-/

namespace RainEngine

open Effects

------------------------------------------------------------
-- Compared Counts
------------------------------------------------------------

/- The limit on failed steps that is in force. -/
def failureLimit
    (policy : EnginePolicy)
    (records : List SessionRecord) :
    Nat :=
  (effectivePolicy policy records).maxConsecutiveToolFailures

/- The outcome of an advance with too many failed steps. -/
def OutcomeRecord.IsFailureStop (outcome : OutcomeRecord) : Prop :=
  outcome.stopReason = .policyAborted ∧
    outcome.detail =
      some "max consecutive tool failure steps reached"

/-
  The provider is asked below the limit on failed steps, and
  the limit is only named when it has been reached.
-/
def Compares
    (policy : EnginePolicy)
    (w : World) :
    Op → Prop
| .generateAction (some _) _ =>
    currentConsecutiveToolFailureSteps w.ledger <
      failureLimit policy w.ledger
| .append (.outcome outcome) =>
    outcome.IsFailureStop →
      failureLimit policy w.ledger ≤
        currentConsecutiveToolFailureSteps w.ledger
| _ => True

/- A copy with the count and the policy of the ledger. -/
structure SameCount
    (policy : EnginePolicy)
    (copy records : List SessionRecord) : Prop where
  failures :
    currentConsecutiveToolFailureSteps copy =
      currentConsecutiveToolFailureSteps records
  policy :
    effectivePolicy policy copy =
      effectivePolicy policy records

/- The kernel works with the count and limit of the ledger. -/
structure Counted
    (policy : EnginePolicy)
    (context : AgentContext)
    (failures : Nat)
    (records : List SessionRecord) : Prop where
  failures :
    failures = currentConsecutiveToolFailureSteps records
  limit :
    context.metadata.policy.maxConsecutiveToolFailures =
      failureLimit policy records

/- A request that goes with any count and any limit. -/
def Op.Uncompared (op : Op) : Prop :=
  ∀ policy w, Compares policy w op

section Compared

variable {policy : EnginePolicy}
variable {records : List SessionRecord}
variable {record : SessionRecord}
variable {w : World}
variable {op : Op}

theorem Op.Follows.uncompared
    (hFollows : op.Follows) :
    op.Uncompared := by
  intro policy w
  cases op with
  | generateAction _ _ => exact hFollows.elim
  | append record =>
      cases record with
      | outcome outcome =>
          rintro ⟨hReason, _⟩
          have hGuarded : outcome.stopReason.isGuarded = false :=
            hFollows
          rw [hReason] at hGuarded
          cases hGuarded
      | _ => trivial
  | _ => trivial

theorem Op.Quiet.compares
    {w : World}
    {op : Op}
    (hQuiet : op.Quiet) :
    Compares policy w op := by
  cases op <;> trivial

theorem effectivePolicy_snoc_other
    (hOther : record.asPolicyTuning = none) :
    effectivePolicy policy (records ++ [record]) =
      effectivePolicy policy records := by
  unfold effectivePolicy
  rw [activePolicyOverlay_snoc_other hOther]

theorem SameCount.snoc
    {copy : List SessionRecord}
    (hSame : SameCount policy copy records)
    (hAsks : record.asks = none)
    (hOther : record.asPolicyTuning = none) :
    SameCount policy copy (records ++ [record]) where
  failures := by
    rw [failureSteps_snoc hAsks]
    exact hSame.failures
  policy := by
    rw [effectivePolicy_snoc_other hOther]
    exact hSame.policy

theorem IsPreparation.asks_eq
    (hRecord : IsPreparation record) :
    record.asks = none ∧ record.asPolicyTuning = none := by
  cases record <;> first | exact ⟨rfl, rfl⟩ | cases hRecord

end Compared

------------------------------------------------------------
-- The Guard
------------------------------------------------------------

/- Whatever happens, the counts are compared so. -/
abbrev Comparing
    {α : Type}
    (M : Machine Op Answer World)
    (policy : EnginePolicy)
    (p : EngineM α)
    (w : World) :
    Prop :=
  Safe M (Compares policy) (fun _ _ => True)
    (fun _ _ => True) p w

section Guard

variable {M : Machine Op Answer World}
variable {engine : AgentEngine}
variable {policy : EnginePolicy}
variable {context : AgentContext}
variable {trigger : AgentTrigger}
variable {stepsExecuted failures : Nat}
variable {emittedEvents : List KernelEventRecord}
variable {w : World}

theorem comparing_of_uses
    {α : Type}
    {V : α → Prop}
    {p : EngineM α}
    (hUses : Uses Op.Uncompared V p) :
    Comparing M policy p w :=
  Safe.mono (fun _ _ h => h) (fun _ _ _ => trivial)
    (fun _ _ _ => trivial)
    (Uses.safe (I := fun _ => True) hUses
      (fun _ _ _ hOp => hOp policy _)
      (fun _ _ _ _ _ _ => trivial) trivial)

theorem Following.uncompared
    {α : Type}
    {p : EngineM α}
    (hFollowing : Following p) :
    Uses Op.Uncompared (fun _ => True) p :=
  Uses.mono (fun _ h => h.uncompared) (fun _ h => h)
    hFollowing

/- Nothing is compared once the provider has answered. -/
theorem uncompared_followDecision
    {decision : ProviderDecision} :
    Uses Op.Uncompared (fun _ => True)
      (followDecision engine context decision stepsExecuted
        emittedEvents) := by
  unfold followDecision
  refine Uses.bind
    (uses_persistProviderMetadata (fun _ _ _ => trivial)
      (fun _ _ _ => trivial)) ?_
  intro context' _
  dsimp only
  refine Uses.bind (V := fun _ => True)
    (uses_append fun _ _ => trivial) ?_
  intro stored _
  cases stored with
  | error error => trivial
  | ok _ => exact Following.uncompared follows_executeAction

theorem comparing_askProvider
    (hBelow : currentConsecutiveToolFailureSteps w.ledger <
      failureLimit policy w.ledger) :
    Comparing M policy
      (askProvider engine context trigger stepsExecuted
        emittedEvents) w := by
  unfold askProvider Comparing
  rw [Safe.bind_iff, safe_perform]
  refine ⟨hBelow, ?_⟩
  intro answer _
  cases answer with
  | none =>
      exact comparing_of_uses
        (follows_finishAdvance rfl).uncompared
  | some answer =>
      cases answer with
      | error error =>
          exact comparing_of_uses
            (follows_finishAdvance rfl).uncompared
      | ok decision =>
          exact comparing_of_uses uncompared_followDecision

/- One step, from a count that agrees with the ledger. -/
theorem comparing_performSingleStep
    (hHost : OnHost M)
    (hCounted : Counted policy context failures w.ledger) :
    Comparing M policy
      (performSingleStep engine context trigger
        stepsExecuted failures emittedEvents) w := by
  unfold performSingleStep
  split
  · unfold Comparing
    rw [Safe.bind_iff]
    apply hHost.safe_append (by trivial)
    · exact comparing_of_uses
        (Following.uncompared follows_executeAction)
    · intro error _
      exact comparing_of_uses
        (Following.uncompared follows_executeAction)
  · unfold policyOutcome
    rw [Program.bind_assoc]
    refine Safe.bind
      (hHost.safe_policyStop Op.Quiet.compares) ?_
    rintro stop w' ⟨⟨cancelled, late, _, hStop⟩, hSame⟩
    subst hSame
    cases stop with
    | none =>
        have hBelow := guardDecision_none hStop.symm
        rw [hCounted.limit, hCounted.failures] at hBelow
        exact comparing_askProvider hBelow
    | some stop =>
        obtain ⟨stopReason, detail⟩ := stop
        dsimp only
        rw [Program.bind_assoc]
        refine Safe.bind
          (hHost.safe_finish
            (fun hEnds => hEnds.follows.uncompared policy _)
            ?_) ?_
        · rintro outcome _ hDetail _ ⟨_, hText⟩
          rw [hDetail] at hText
          obtain rfl := Option.some.inj hText
          have hReached := guardDecision_failed hStop.symm
          rw [hCounted.limit, hCounted.failures] at hReached
          exact hReached
        · intro outcome w'' _
          trivial

end Guard

------------------------------------------------------------
-- Advances
------------------------------------------------------------

/-
  An advance that comes to its guard before anything is run:
  it is for no approval, and it finds no unfinished graph.
-/
def Advance.StartsAtGuard (t : Advance) : Prop :=
  match t.request with
  | .trigger request => request.trigger.isApproval = false
  | .continueWith _ =>
      activeToolExecutionGraph t.before.ledger = none

section Advances

variable {M : Machine Op Answer World}
variable {engine : AgentEngine}
variable {policy : EnginePolicy}
variable {w : World}

/- The preparation of a step keeps the count of a copy. -/
theorem comparing_preparing
    {base : List SessionRecord}
    (hLoads : ∀ w, ¬LoadFails M w) :
    Preparing M engine (Compares policy)
      (SameCount policy base) where
  loads := hLoads
  quiet := Op.Quiet.compares
  summarize := fun _ _ _ => trivial
  request := by
    intro w record hRecord
    cases record <;> trivial
  keeps := fun hRecord hSame =>
    hSame.snoc hRecord.asks_eq.1 hRecord.asks_eq.2
  proposed := fun _ _ _ =>
    ⟨fun _ => trivial, fun _ hSame => hSame.snoc rfl rfl⟩

/- A snapshot with the count of the ledger starts the step. -/
theorem comparing_triggerStep
    {request : ProcessRequest}
    {triggerId : String}
    {snapshot : SessionSnapshot}
    (hHost : OnHost M)
    (hLoads : ∀ w, ¬LoadFails M w)
    (hPlain : request.trigger.isApproval = false)
    (hSame :
      SameCount request.policy snapshot.records w.ledger) :
    Comparing M request.policy
      (triggerStep engine request triggerId snapshot) w := by
  have hPrepares := @comparing_preparing M engine
    request.policy snapshot.records hLoads
  unfold triggerStep
  refine Safe.bind
    (hPrepares.safe_persistKernelEvents hHost hSame) ?_
  rintro context' w' ⟨_, hMetadata, hSame⟩
  dsimp only
  split
  · rename_i hTrigger
    rw [hTrigger] at hPlain
    cases hPlain
  · apply comparing_performSingleStep hHost
    constructor
    · exact hSame.failures
    · rw [hMetadata]
      unfold failureLimit
      rw [← hSame.policy]
      rfl

theorem comparing_processTrigger
    {request : ProcessRequest}
    {trigger : TriggerRecord}
    (hHost : OnHost M)
    (hLoads : ∀ w, ¬LoadFails M w)
    (hPlain : request.trigger.isApproval = false) :
    Comparing M request.policy
      (processTrigger engine request trigger) w := by
  have hBase : SameCount request.policy w.ledger w.ledger :=
    ⟨rfl, rfl⟩
  apply (comparing_preparing hLoads).safe_processTrigger
    hHost hBase
  intro snapshot w' hCopy hRecords
  apply comparing_triggerStep hHost hLoads hPlain
  exact ⟨hCopy.failures.symm.trans hRecords.failures,
    hCopy.policy.symm.trans hRecords.policy⟩

theorem comparing_advanceContinue
    {request : ContinueRequest}
    (hHost : OnHost M)
    (hNone : activeToolExecutionGraph w.ledger = none) :
    Comparing M request.policy (advanceContinue engine request)
      w := by
  apply hHost.safe_advanceContinue (by trivial)
  · intro error _
    trivial
  · intro _
    exact ⟨trivial, fun _ _ => trivial⟩
  · intro trigger _
    unfold continueTrigger
    have hGraph :
        activeToolExecutionGraph w.snapshot.records = none :=
      hNone
    rw [hGraph]
    exact comparing_performSingleStep hHost ⟨rfl, rfl⟩

/- An advance that starts at its guard compares the count. -/
theorem Advance.compares
    {t : Advance}
    (hHost : OnHost M)
    (hLoads : ∀ w, ¬LoadFails M w)
    (hStarts : t.StartsAtGuard) :
    Comparing M t.request.policy (advance t.engine t.request)
      t.before := by
  unfold Advance.StartsAtGuard at hStarts
  cases hRequest : t.request with
  | trigger request =>
      rw [hRequest] at hStarts
      apply hHost.safe_advanceTrigger (by trivial)
      · intro triggerId _ key
        trivial
      · intro triggerId _ prior _
        trivial
      · intro triggerId _ _
        exact ⟨trivial, fun _ _ => trivial,
          comparing_processTrigger hHost hLoads hStarts⟩
  | continueWith request =>
      rw [hRequest] at hStarts
      exact comparing_advanceContinue hHost hStarts

end Advances

------------------------------------------------------------
-- Runs
------------------------------------------------------------

/- With no batch in progress the kernel counts the batches. -/
def CountsBatches (records : List SessionRecord) : Prop :=
  BatchDone records →
    currentConsecutiveToolFailureSteps records =
      failedBatchRun records

/-
  How a session counts its failed batches: in every state of
  a run with no batch in progress, and where an advance that
  starts at its guard compares them with the limit.
-/
structure FailureStepsCounted
    (run : List Advance)
    (w : World) : Prop where
  during : ∀ t ∈ run, ∀ s ∈ t.steps,
    CountsBatches s.before.ledger
  after : ∀ t ∈ run, CountsBatches t.after.ledger
  final : CountsBatches w.ledger
  below : ∀ t ∈ run, t.Runs loading → t.StartsAtGuard →
    ∀ s ∈ t.steps, BatchDone s.before.ledger →
      ∀ timeoutMs request,
        s.op = .generateAction (some timeoutMs) request →
          failedBatchRun s.before.ledger <
            failureLimit t.request.policy s.before.ledger
  reached : ∀ t ∈ run, t.Runs loading → t.StartsAtGuard →
    ∀ s ∈ t.steps, BatchDone s.before.ledger →
      ∀ outcome, s.op = .append (.outcome outcome) →
        outcome.IsFailureStop →
          failureLimit t.request.policy s.before.ledger ≤
            failedBatchRun s.before.ledger

/-
  In every run whose batches are recorded for decisions, one
  whole batch after the other, the failed ones are counted.
-/
theorem run_failure_steps_counted
    (sessionId : String)
    (run : List Advance)
    (w : World)
    (hRun : Run host (World.empty sessionId) run w)
    (hBatches : ∀ t ∈ run, t.Batches) :
    FailureStepsCounted run w := by
  obtain ⟨hBefore, hFinal⟩ :=
    hRun.attributed .host hBatches attributed_nil
  have hAttributed : ∀ t ∈ run,
      (∀ s ∈ t.steps, Attributed s.before.ledger) ∧
        Attributed t.after.ledger := by
    intro t hMem
    exact Advance.attributed .host (hRun.runs t hMem)
      (hBatches t hMem) (hBefore t hMem)
  have hCounts : ∀ t ∈ run, ∀ s ∈ t.steps,
      CountsBatches s.before.ledger := by
    intro t hMem s hStep
    exact ((hAttributed t hMem).1 s hStep).count_eq
  have hCompares : ∀ t ∈ run, t.Runs loading →
      t.StartsAtGuard → ∀ s ∈ t.steps,
        Compares t.request.policy s.before s.op := by
    intro t hMem hRuns hStarts s hStep
    exact (Advance.compares .loading not_loadFails_loading
      hStarts).steps hRuns s hStep
  constructor
  · exact hCounts
  · intro t hMem
    exact (hAttributed t hMem).2.count_eq
  · exact hFinal.count_eq
  · intro t hMem hRuns hStarts s hStep hDone timeoutMs request
      hOp
    have hCompared := hCompares t hMem hRuns hStarts s hStep
    rw [hOp] at hCompared
    rw [← hCounts t hMem s hStep hDone]
    exact hCompared
  · intro t hMem hRuns hStarts s hStep hDone outcome hOp hStop
    have hCompared := hCompares t hMem hRuns hStarts s hStep
    rw [hOp] at hCompared
    rw [← hCounts t hMem s hStep hDone]
    exact hCompared hStop

------------------------------------------------------------
-- Batches That Are Not Counted
------------------------------------------------------------

theorem batchDone_iff
    {records : List SessionRecord} :
    BatchDone records ↔
      (newestBatch records).isEmpty = true ∨
        ((askedCalls (batchBase records)).any fun calls =>
          decide
            ((newestBatch records).length = calls.length)) =
          true := by
  unfold BatchDone
  cases askedCalls (batchBase records) <;> simp

instance (records : List SessionRecord) :
    Decidable (BatchDone records) :=
  decidable_of_iff' _ batchDone_iff

namespace Sample

def traps : SkillInvocation → SkillAnswer := fun _ =>
  .returned (.error { kind := .trap, message := "trap" })

/- A provider that calls one skill, which fails. -/
def failsOnce : Script :=
  { callsFirst [call "a" .null] with skill := traps }

/- The same, but the process stops while the skill runs. -/
def stopsInCall : Script :=
  { failsOnce with
    stopsAt := fun op =>
      match op with
      | .execute _ _ => true
      | _ => false }

/- A planner whose plan is one call of a skill that fails. -/
def plansFailure : Script :=
  { responds with
    planned :=
      { proposedPlan := some
          { objective := "call"
            steps := [.callSkills [call "a" .null]] } }
    skill := traps }

/- A continuation that stops for one failed step. -/
def failsAtOne : ContinueRequest :=
  { resume with
    policy :=
      { EnginePolicy.default with
        maxConsecutiveToolFailures := 1 } }

def failedOnce : List (Script × AdvanceRequest) :=
  [(failsOnce, .trigger message),
    (failsOnce, .continueWith failsAtOne)]

def resumedOnce : List (Script × AdvanceRequest) :=
  [(stopsInCall, .trigger message),
    (failsOnce, .continueWith failsAtOne)]

/- The records of an advance are in order. -/
def batches (t : Advance) : Bool :=
  t.steps.all fun s =>
    match s.op with
    | .append (.toolResult _) =>
        (askedCalls (batchBase s.before.ledger)).isSome
    | .append (.outcome _) => true
    | .append _ => decide (BatchDone s.before.ledger)
    | _ => true

theorem of_batches
    {t : Advance}
    (hTest : batches t = true) :
    t.Batches := by
  intro s hMem record hOp
  have hStep := List.all_eq_true.mp hTest s hMem
  rw [hOp] at hStep
  cases record with
  | toolResult _ => exact Option.isSome_iff_ne_none.mp hStep
  | outcome _ => trivial
  | _ =>
      have hDone : BatchDone s.before.ledger :=
        of_decide_eq_true hStep
      exact hDone

/- The advance has come to its end. -/
def completes (t : Advance) : Bool :=
  match t.result with
  | some (.ok _) => true
  | _ => false

/- The provider is asked at the limit on failed steps. -/
def asksAtLimit (t : Advance) : Bool :=
  t.steps.any fun s =>
    match s.op with
    | .generateAction (some _) _ =>
        decide
          (BatchDone s.before.ledger ∧
            failureLimit t.request.policy s.before.ledger ≤
              failedBatchRun s.before.ledger)
    | _ => false

end Sample

/- A failed batch is counted, and one is the limit. -/
theorem run_failure_steps_counted_once :
    (Script.session Sample.engine Sample.failedOnce
        (World.empty "session")).ledger.any
          SessionRecord.isOutcome = true ∧
      FailureStepsCounted
        (Script.advances Sample.engine Sample.failedOnce
          (World.empty "session"))
        (Script.session Sample.engine Sample.failedOnce
          (World.empty "session")) := by
  refine ⟨by decide +kernel, ?_⟩
  apply run_failure_steps_counted "session" _ _
    (Script.session_run Sample.engine Sample.failedOnce
      _).of_reliable
  have hBatches :
      (Script.advances Sample.engine Sample.failedOnce
        (World.empty "session")).all Sample.batches = true := by
    decide +kernel
  intro t hMem
  exact Sample.of_batches
    (List.all_eq_true.mp hBatches t hMem)

/-
  The failed batch of a plan step is not counted, and that of
  a resumed graph is not compared with the limit.
-/
theorem plan_batch_not_counted :
    ¬(∀ (sessionId : String) (run : List Advance) (w : World),
      Run reliable (World.empty sessionId) run w →
        (∀ t ∈ run, Sample.completes t = true) →
          currentConsecutiveToolFailureSteps w.ledger =
            failedBatchRun w.ledger) ∧
    ¬(∀ (sessionId : String) (run : List Advance) (w : World),
      Run reliable (World.empty sessionId) run w →
        ∀ t ∈ run, ∀ s ∈ t.steps, BatchDone s.before.ledger →
          ∀ timeoutMs request,
            s.op = .generateAction (some timeoutMs) request →
              failedBatchRun s.before.ledger <
                failureLimit t.request.policy
                  s.before.ledger) := by
  constructor
  · intro hAll
    have hSame := hAll "session" _ _
      (Script.session_run Sample.planning
        [(Sample.plansFailure, .trigger Sample.message)] _)
      (List.all_eq_true.mp (by decide +kernel))
    have hNone :
        currentConsecutiveToolFailureSteps
          (Script.session Sample.planning
            [(Sample.plansFailure, .trigger Sample.message)]
            (World.empty "session")).ledger = 0 := by
      decide +kernel
    have hOne :
        failedBatchRun
          (Script.session Sample.planning
            [(Sample.plansFailure, .trigger Sample.message)]
            (World.empty "session")).ledger = 1 := by
      decide +kernel
    omega
  · intro hAll
    have hAsks :
        (Script.advances Sample.engine Sample.resumedOnce
          (World.empty "session")).any Sample.asksAtLimit =
            true := by
      decide +kernel
    obtain ⟨t, hMem, hTest⟩ := List.any_eq_true.mp hAsks
    obtain ⟨s, hStep, hStepTest⟩ := List.any_eq_true.mp hTest
    split at hStepTest
    · rename_i timeoutMs request hOp
      obtain ⟨hDone, hReached⟩ := of_decide_eq_true hStepTest
      have hBelow := hAll "session" _ _
        (Script.session_run Sample.engine Sample.resumedOnce _)
        t hMem s hStep hDone timeoutMs request hOp
      omega
    · cases hStepTest

end RainEngine
