import RainEngine.Advances.Inquiries
import RainEngine.Effects.Dues
import RainEngine.Sessions.Runs

/-
  This file proves that the ledger holds what the provider has
  answered. The usage, the cache and the decision of an answer
  are recorded in this order, each once and before anything
  else is asked of the host; only an advance that is stopped,
  or that the store has failed, leaves some of them out.

  Key definitions include:
    * `answerRecords`
    * `repliesIn`
    * `answerDues`
    * `Advance.Settled`

  Key theorems include:
    * `owes_followDecision`
    * `owes_advance`
    * `Advance.keeps`
    * `run_keeps_answers`
-/

namespace RainEngine

open Effects

------------------------------------------------------------
-- Answers Of The Provider
------------------------------------------------------------

/- The records of one answer. -/
def answerRecords
    (step : Nat)
    (decision : ProviderDecision) :
    List SessionRecord :=
  decision.usage.toList.map .providerUsage ++
    decision.cache.toList.map .providerCache ++
      [.modelDecision
        { step := step, action := decision.action }]

/- The records of the answer to a request. -/
def repliesBy : (op : Op) → Answer op → List SessionRecord
| .generateAction (some _) request, some (.ok decision) =>
    answerRecords request.context.currentStep decision
| _, _ => []

/- The records of all answers in an execution. -/
def repliesIn
    (steps : List (Step Op Answer World)) :
    List SessionRecord :=
  steps.flatMap fun s => repliesBy s.op s.answer

/- The answer that a request records a part of. -/
def Op.answerEntry : Op → Option SessionRecord
| .append record =>
    if record.isAnswer then some record else none
| _ => none

def isStored : Exchange Answer → Bool
| ⟨.append _, .ok _⟩ => true
| _ => false

/- Answers are to be recorded. -/
def answerDues : Dues Answer SessionRecord where
  owed := fun x => repliesBy x.1 x.2
  entry := Op.answerEntry
  isStored := isStored
  owed_of_entry := by
    rintro ⟨op, a⟩ record hEntry
    cases op with
    | append _ => rfl
    | _ => cases hEntry

/- No record is left out of a result but for the store. -/
def DebtFree
    (due : List SessionRecord)
    (result : AdvanceResult) :
    Prop :=
  due = [] ∨
    ∃ outcome, result.outcome = some outcome ∧
      outcome.stopReason = .storageFailure

------------------------------------------------------------
-- What An Advance Owes
------------------------------------------------------------

section Owing

variable {engine : AgentEngine}
variable {context : AgentContext}
variable {trigger : AgentTrigger}
variable {stepsExecuted : Nat}
variable {emittedEvents : List KernelEventRecord}

theorem Op.Routine.isFree
    {op : Op}
    (hRoutine : op.Routine) :
    answerDues.IsFree op := by
  refine ⟨?_, ?_⟩
  · cases op with
    | append record =>
        change (if record.isAnswer then some record
          else none) = none
        rw [show record.isAnswer = false from hRoutine]
        rfl
    | _ => rfl
  · intro a
    cases op with
    | generateAction timeoutMs request =>
        have hNone : timeoutMs = none := hRoutine
        subst hNone
        rfl
    | _ => rfl

theorem Routine.owes
    {p : EngineM AdvanceResult}
    (hRoutine : Routine p) :
    answerDues.Owes DebtFree [] p :=
  Dues.Owes.of_uses (fun _ h => h.isFree)
    (fun _ _ => .inl rfl) hRoutine

theorem entry_of_isAnswer
    {record : SessionRecord}
    (hAnswer : record.isAnswer = true) :
    answerDues.entry (.append record) = some record := by
  change (if record.isAnswer then some record else none) =
    some record
  rw [hAnswer]
  rfl

theorem permits_append
    {record : SessionRecord}
    {rest : List SessionRecord}
    (hAnswer : record.isAnswer = true) :
    answerDues.Permits (record :: rest) (.append record) := by
  unfold Dues.Permits
  rw [entry_of_isAnswer hAnswer]
  rfl

theorem due_append
    {record : SessionRecord}
    {rest : List SessionRecord}
    {stored : Unit}
    (hAnswer : record.isAnswer = true) :
    answerDues.due (record :: rest)
      ⟨.append record, .ok stored⟩ = rest := by
  unfold Dues.due
  rw [entry_of_isAnswer hAnswer]
  rfl

/- The first record due is stored, or the advance throws. -/
theorem owes_appendAndPush
    {record : SessionRecord}
    {rest : List SessionRecord}
    (hAnswer : record.isAnswer = true) :
    answerDues.Owes (fun due _ => due = rest)
      (record :: rest) (appendAndPush context record) := by
  refine ⟨permits_append hAnswer, ?_⟩
  intro stored
  cases stored with
  | error error => trivial
  | ok stored => exact due_append hAnswer

/- The report of the provider leaves its decision due. -/
theorem owes_persistProviderMetadata
    {decision : ProviderDecision}
    {rest : List SessionRecord} :
    answerDues.Owes (fun due _ => due = rest)
      (decision.usage.toList.map .providerUsage ++
        decision.cache.toList.map .providerCache ++ rest)
      (persistProviderMetadata decision context) := by
  have hCache : ∀ context : AgentContext,
      answerDues.Owes (fun due _ => due = rest)
        (decision.cache.toList.map .providerCache ++ rest)
        (persistProviderMetadata
          { decision with usage := none } context) := by
    intro context
    unfold persistProviderMetadata
    cases decision.cache with
    | none => rfl
    | some cache => exact owes_appendAndPush rfl
  unfold persistProviderMetadata
  cases decision.usage with
  | none => exact hCache context
  | some usage =>
      refine Dues.Owes.bind (owes_appendAndPush rfl) ?_
      rintro due context' rfl
      exact hCache context'

/- A decision is recorded before it is carried out. -/
theorem owes_followDecision
    {decision : ProviderDecision} :
    answerDues.Owes DebtFree
      (answerRecords stepsExecuted decision)
      (followDecision engine context decision stepsExecuted
        emittedEvents) := by
  refine Dues.Owes.bind owes_persistProviderMetadata ?_
  rintro due context' rfl
  refine Dues.Owes.perform (permits_append rfl) ?_
  intro stored
  cases stored with
  | error error => exact .inr ⟨_, rfl, rfl⟩
  | ok stored =>
      rw [due_append rfl]
      exact routine_executeAction.owes

theorem owes_askProvider :
    answerDues.Owes DebtFree []
      (askProvider engine context trigger stepsExecuted
        emittedEvents) := by
  refine Dues.Owes.perform rfl ?_
  intro answer
  cases answer with
  | none => exact routine_finishAdvance.owes
  | some answer =>
      cases answer with
      | error error => exact routine_finishAdvance.owes
      | ok decision => exact owes_followDecision

theorem Inquires.owes
    {p : EngineM AdvanceResult}
    (hInquires : Inquires engine p) :
    answerDues.Owes DebtFree [] p := by
  refine Dues.Owes.of_leads hInquires
    (fun _ h => h.isFree) (fun _ => .inl rfl) ?_
  rintro p ⟨context, trigger, stepsExecuted, events, rfl⟩
  exact owes_askProvider

/- A routine part comes before the rest. -/
theorem Routine.owes_bind
    {α : Type}
    {p : EngineM α}
    {f : α → EngineM AdvanceResult}
    (hRoutine : Routine p)
    (hNext : ∀ a, answerDues.Owes DebtFree [] (f a)) :
    answerDues.Owes DebtFree [] (p >>= f) := by
  refine Dues.Owes.bind (P := fun due _ => due = [])
    (Dues.Owes.of_uses (fun _ h => h.isFree)
      (fun _ _ => rfl) hRoutine) ?_
  rintro due a rfl
  exact hNext a

theorem owes_processTrigger
    {request : ProcessRequest}
    {record : TriggerRecord} :
    answerDues.Owes DebtFree []
      (processTrigger engine request record) := by
  have hLoaded : ∀ snapshot,
      answerDues.Owes DebtFree []
        (append (.triggerIntent
            { triggerId := record.triggerId
              intent := classifyTriggerIntent
                engine.rendering request.trigger }) >>=
          fun _ => refreshSnapshot snapshot >>=
            fun snapshot =>
              runPlanner engine request snapshot >>=
                triggerStep engine request
                  record.triggerId) := by
    intro snapshot
    refine Routine.owes_bind (uses_append rfl) ?_
    intro _
    refine Routine.owes_bind (uses_refreshSnapshot trivial) ?_
    intro refreshed
    exact inquires_planned.owes
  refine Dues.Owes.perform rfl ?_
  intro cached
  cases cached with
  | some cached => exact hLoaded _
  | none =>
      refine Dues.Owes.perform rfl ?_
      intro answer
      cases answer with
      | error error => exact .inl rfl
      | ok snapshot => exact hLoaded snapshot

/- No answer is left behind in an advance. -/
theorem owes_advance
    (request : AdvanceRequest) :
    answerDues.Owes DebtFree [] (advance engine request) := by
  cases request with
  | continueWith request =>
      exact inquires_advanceContinue.owes
  | trigger request =>
      refine Routine.owes_bind (uses_newUuid trivial) ?_
      intro triggerId
      refine Routine.owes_bind routine_findPriorOutcome ?_
      intro prior
      cases prior with
      | some prior => exact .inl rfl
      | none =>
          refine Routine.owes_bind (uses_append rfl) ?_
          intro stored
          cases stored with
          | error error => exact .inl rfl
          | ok _ => exact owes_processTrigger

end Owing

------------------------------------------------------------
-- What The Ledger Holds
------------------------------------------------------------

/- The answers of the provider among the records. -/
def answersOf
    (records : List SessionRecord) :
    List SessionRecord :=
  records.filter SessionRecord.isAnswer

/- The advance has returned, and not for a failed store. -/
def Advance.Settled (t : Advance) : Prop :=
  (∃ result, t.result = some (.ok result)) ∧
    ∀ outcome, t.returned = some outcome →
      outcome.stopReason ≠ .storageFailure

/- What an advance keeps of the provider's answers. -/
structure Advance.Keeps (t : Advance) : Prop where
  stored : answersOf t.added <+: repliesIn t.steps
  whole : t.Settled → answersOf t.added = repliesIn t.steps
  ahead : ∀ early s late,
    t.steps = early ++ s :: late →
      s.op.answerEntry = none →
        answersOf (storedIn early) = repliesIn early

section Keeping

variable {steps : List (Step Op Answer World)}
variable {t : Advance}

theorem paid_exchange
    (s : Step Op Answer World) :
    answerDues.paid s.exchange =
      answersOf (storedBy s.op s.answer).toList := by
  rcases s with ⟨w, op, a⟩
  cases op with
  | append record =>
      cases a with
      | error error => rfl
      | ok stored =>
          cases hAnswer : record.isAnswer with
          | true =>
              simp [Dues.paid, answerDues, Step.exchange,
                isStored, Op.answerEntry, storedBy,
                answersOf, hAnswer]
          | false =>
              simp [Dues.paid, answerDues, Step.exchange,
                isStored, Op.answerEntry, storedBy,
                answersOf, hAnswer]
  | _ => rfl

theorem paid_steps :
    (steps.map Step.exchange).flatMap answerDues.paid =
      answersOf (storedIn steps) := by
  induction steps with
  | nil => rfl
  | cons s rest ih =>
      rw [List.map_cons, List.flatMap_cons, ih,
        paid_exchange, storedIn_cons]
      exact (List.filter_append _ _).symm

theorem owed_steps :
    (steps.map Step.exchange).flatMap answerDues.owed =
      repliesIn steps :=
  List.flatMap_map _ _ _

/- An advance keeps the answers it gets, in their order. -/
theorem Advance.keeps
    {M : Machine Op Answer World}
    (hHost : OnHost M)
    (hRuns : t.Runs M) :
    t.Keeps := by
  rcases (owes_advance t.request).exec hRuns with
    ⟨hHonest, hReturned⟩
  have hPaid := hHonest.paid
  rw [paid_steps, owed_steps, List.nil_append,
    ← Advance.added_eq hHost hRuns] at hPaid
  refine ⟨⟨_, hPaid⟩, ?_, ?_⟩
  · rintro ⟨⟨result, hResult⟩, hKept⟩
    cases hReturned result hResult with
    | inl hNone =>
        rw [hNone, List.append_nil] at hPaid
        exact hPaid
    | inr hFailed =>
        rcases hFailed with ⟨outcome, hOutcome, hReason⟩
        refine absurd hReason (hKept outcome ?_)
        unfold Advance.returned
        rw [hResult]
        exact hOutcome
  · intro early s late hSteps hOther
    rw [hSteps, List.map_append, List.map_cons] at hHonest
    have hAhead := hHonest.ahead (D := answerDues) hOther
    rw [paid_steps, owed_steps] at hAhead
    exact hAhead

/-
  In every run, whoever fails and wherever it is stopped, the
  ledger goes on with the records of the provider's answers,
  in order: each advance adds all of them, or the first ones
  if it is stopped or the store fails, and adds those it has
  got before it asks for anything else.
-/
theorem run_keeps_answers
    {M : Machine Op Answer World}
    {run : List Advance}
    {w w' : World}
    (hHost : OnHost M)
    (hRun : Run M w run w') :
    (∀ t ∈ run, t.Keeps) ∧
      answersOf w'.ledger =
        answersOf w.ledger ++
          run.flatMap fun t => answersOf t.added := by
  induction hRun with
  | nil => simp
  | @cons t rest w' hAdvance hRest ih =>
      rcases ih with ⟨hKeeps, hLedger⟩
      refine ⟨List.forall_mem_cons.mpr
        ⟨Advance.keeps hHost hAdvance, hKeeps⟩, ?_⟩
      rw [hLedger, Advance.ledger_eq hHost hAdvance,
        List.flatMap_cons, answersOf, List.filter_append,
        List.append_assoc]
      rfl

end Keeping

namespace Sample

def usage : ProviderUsageRecord where
  providerName := "provider"
  inputTokens := 3
  outputTokens := 1
  estimatedCostUsd := .finite 1
  cachedContentId := none

/- A provider that reports what its answer has cost. -/
def charges : Script where
  decision _ :=
    { action := .respond "done", usage := some usage }
  skill _ := .returned (.ok .null)

/- An advance that is stopped once its cost is recorded. -/
def chargedTurns : List (Script × AdvanceRequest) :=
  [(charges, .trigger message),
    ({ charges with
        stopsAt := (· matches .append (.modelDecision _)) },
      .trigger message)]

end Sample

/- Of the second answer only the cost is recorded. -/
theorem run_keeps_answers_stopped :
    (∀ t ∈ Script.advances Sample.engine Sample.chargedTurns
        (World.empty "session"), t.Keeps) ∧
      (answersOf (Script.session Sample.engine
          Sample.chargedTurns
          (World.empty "session")).ledger).map
            (· matches .providerUsage _) =
        [true, false, true] := by
  refine ⟨(run_keeps_answers OnHost.reliable
    (Script.session_run Sample.engine Sample.chargedTurns
      (World.empty "session"))).1, ?_⟩
  decide +kernel

end RainEngine
