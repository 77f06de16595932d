import RainEngine.Advances.Conclusions
import RainEngine.Sessions.Runs

/-
  This file proves when an advance reports an outcome exactly
  if it has stored one. The append of the outcome is not
  checked, and every append after it is.

  Key definitions include:
    * `AppendFails`
    * `Advance.Finishes`
    * `ReportsStored`
    * `FailsTogether`

  Key theorems include:
    * `strict_runSelfImprovement`
    * `exec_finishAdvance`
    * `reportsStored_iff`
-/

namespace RainEngine

open Effects

------------------------------------------------------------
-- Failed Appends
------------------------------------------------------------

/- The answer of an append that was not stored. -/
def AppendFails : (op : Op) → Answer op → Prop
| .append _, .error _ => True
| _, _ => False

section Improvement

variable {engine : AgentEngine}
variable {context : AgentContext}
variable {outcome : OutcomeRecord}

theorem strict_newUuid :
    Strict AppendFails newUuid :=
  strict_perform fun _ => id

theorem strict_appendAndPush
    {record : SessionRecord} :
    Strict AppendFails (appendAndPush context record) := by
  intro a
  cases a with
  | ok _ => exact ⟨False.elim, fun _ => trivial⟩
  | error error =>
      exact ⟨fun _ => ⟨_, rfl⟩,
        fun hStored => (hStored trivial).elim⟩

theorem strict_recordPerformance
    {rendering : Rendering}
    {groups : List ToolPerformance} :
    Strict AppendFails
      (recordPerformance rendering groups context) := by
  induction groups generalizing context with
  | nil => trivial
  | cons performance rest ih =>
      refine Strict.bind strict_newUuid ?_
      intro uuid
      refine Strict.bind strict_appendAndPush ?_
      intro context'
      dsimp only
      split
      · refine Strict.bind ?_ fun _ => ih
        exact Strict.bind strict_newUuid
          fun _ => strict_appendAndPush
      · exact ih

theorem strict_tunePolicy
    {snapshot : AgentContextSnapshot} :
    Strict AppendFails
      (tunePolicy snapshot outcome context) := by
  refine Strict.bind strict_newUuid ?_
  intro tuningUuid
  dsimp only
  split
  · exact strict_appendAndPush
  · refine Strict.bind strict_newUuid ?_
    intro overlayUuid
    split
    · trivial
    · refine Strict.bind strict_appendAndPush ?_
      intro context'
      exact Strict.bind strict_newUuid
        fun _ => strict_appendAndPush

/- The first append that fails ends the self-improvement. -/
theorem strict_runSelfImprovement :
    Strict AppendFails
      (runSelfImprovement engine context outcome) := by
  unfold runSelfImprovement
  dsimp only
  split
  · trivial
  · refine Strict.bind
      (Strict.bind strict_newUuid
        fun _ => strict_appendAndPush) ?_
    intro context'
    refine Strict.bind strict_recordPerformance ?_
    intro context''
    split
    · trivial
    · exact strict_tunePolicy

end Improvement

------------------------------------------------------------
-- The End Of An Advance
------------------------------------------------------------

section Ending

variable {engine : AgentEngine}
variable {context : AgentContext}
variable {stopReason : StopReason}
variable {response detail : Option String}
variable {stepsExecuted : Nat}
variable {resumeToken : Option ResumeToken}
variable {emittedEvents : List KernelEventRecord}

/- The outcome an advance ends with. -/
def endingOutcome
    (context : AgentContext)
    (stopReason : StopReason)
    (response detail : Option String)
    (stepsExecuted : Nat)
    (resumeToken : Option ResumeToken) :
    OutcomeRecord where
  triggerId := context.metadata.triggerId
  idempotencyKey := context.metadata.idempotencyKey
  stopReason := stopReason
  response := response
  detail := detail
  stepsExecuted := stepsExecuted
  resumeToken := resumeToken

/- What an advance does once its outcome is appended. -/
def reportOutcome
    (engine : AgentEngine)
    (context : AgentContext)
    (outcome : OutcomeRecord)
    (emittedEvents : List KernelEventRecord) :
    EngineM AdvanceResult := do
  let context ← runSelfImprovement engine
    (context.push (.outcome outcome)) outcome
  let _ ← Program.perform (Op.setProjection
    { sessionId := context.sessionId
      records := context.records
      latestOutcome := some outcome })
  pure (buildAdvanceResult (.fromRecord outcome)
    emittedEvents)

theorem finishAdvance_eq :
    finishAdvance engine context stopReason response detail
        stepsExecuted resumeToken emittedEvents =
      append (.outcome
          (endingOutcome context stopReason response detail
            stepsExecuted resumeToken)) >>=
        fun _ => reportOutcome engine context
          (endingOutcome context stopReason response detail
            stepsExecuted resumeToken) emittedEvents := by
  unfold finishAdvance finish reportOutcome
  simp only [Program.bind_assoc, Program.pure_bind]
  rfl

theorem strict_reportOutcome
    {outcome : OutcomeRecord} :
    Strict AppendFails
      (reportOutcome engine context outcome
        emittedEvents) := by
  refine Strict.bind strict_runSelfImprovement ?_
  intro context'
  exact Strict.bind (strict_perform fun _ => id)
    fun _ => trivial

theorem uses_reportOutcome
    {outcome : OutcomeRecord} :
    Uses (fun op => ¬op.Concludes)
      (fun result =>
        result.outcome = some (.fromRecord outcome))
      (reportOutcome engine context outcome
        emittedEvents) := by
  refine Uses.bind incidental_runSelfImprovement.preliminary ?_
  intro context' _
  exact ⟨id, fun _ => rfl⟩

end Ending

------------------------------------------------------------
-- Stored And Reported Outcomes
------------------------------------------------------------

/- The advance has come to append an outcome. -/
def Advance.Finishes (t : Advance) : Prop :=
  ∃ s ∈ t.steps, s.op.Concludes

/-
  The advance returns an outcome, other than a failure of the
  store, exactly if it has appended one with its trigger, stop
  reason and response.
-/
def ReportsStored (t : Advance) : Prop :=
  ∀ triggerId stopReason response,
    (∃ outcome, t.returned = some outcome ∧
      outcome.stopReason ≠ .storageFailure ∧
      outcome.triggerId = triggerId ∧
      outcome.stopReason = stopReason ∧
      outcome.response = response) ↔
    ∃ record, .outcome record ∈ t.added ∧
      record.triggerId = triggerId ∧
      record.stopReason = stopReason ∧
      record.response = response

/-
  The append of the outcome fails exactly if an append after
  it does.
-/
def FailsTogether (t : Advance) : Prop :=
  ∀ early s late, t.steps = early ++ s :: late →
    s.op.Concludes →
      (AppendFails s.op s.answer ↔
        ∃ s' ∈ late, AppendFails s'.op s'.answer)

/- No outcome is stored before an advance is concluded. -/
theorem not_mem_storedIn
    {steps : List (Step Op Answer World)}
    {record : OutcomeRecord}
    (hSteps : ∀ s ∈ steps, ¬s.op.Concludes) :
    .outcome record ∉ storedIn steps := by
  intro hMem
  rcases mem_storedIn hMem with ⟨s, hStep, hOp⟩
  have hOther := hSteps s hStep
  rw [hOp] at hOther
  exact hOther trivial

/- The one step of a list at which a property holds. -/
theorem split_unique
    {α : Type}
    {C : α → Prop}
    {early late early' late' : List α}
    {s s' : α}
    (hEq : early ++ s :: late = early' ++ s' :: late')
    (hEarly : ∀ x ∈ early, ¬C x)
    (hStep' : C s')
    (hLate : ∀ x ∈ late, ¬C x) :
    s = s' ∧ late = late' := by
  induction early generalizing early' with
  | nil =>
      cases early' with
      | nil => simpa using hEq
      | cons x rest =>
          rw [List.nil_append, List.cons_append,
            List.cons.injEq] at hEq
          have hMem : s' ∈ late := by
            rw [hEq.2]
            simp
          exact absurd hStep' (hLate s' hMem)
  | cons y rest ih =>
      cases early' with
      | nil =>
          rw [List.nil_append, List.cons_append,
            List.cons.injEq] at hEq
          rw [← hEq.1] at hStep'
          exact absurd hStep' (hEarly y (by simp))
      | cons x rest' =>
          rw [List.cons_append, List.cons_append,
            List.cons.injEq] at hEq
          exact ih hEq.2
            fun x hMem => hEarly x (by simp [hMem])

/- An advance that has come to append an outcome. -/
theorem Advance.Finishes.split
    {t : Advance}
    (hRuns : t.Runs host)
    (hFinishes : t.Finishes) :
    ∃ early v record a late context emittedEvents,
      t.steps =
          early ++ ⟨v, .append (.outcome record), a⟩ :: late ∧
        (∀ s ∈ early, ¬s.op.Concludes) ∧
        (∀ s ∈ late, ¬s.op.Concludes) ∧
        record.stopReason ≠ .storageFailure ∧
        Exec host
          (hostNext v (.append (.outcome record)) a)
          (reportOutcome t.engine context record
            emittedEvents)
          late t.after t.result := by
  rcases hFinishes with ⟨s, hMem, hConcludes⟩
  rcases (concludes_advance t.request).exec hRuns with
    hNone | ⟨early, ending, tail, v, hTail, hSteps, hEarly,
      hExec⟩
  · exact absurd hConcludes (hNone s hMem)
  · rcases hTail with ⟨context, stopReason, response, detail,
      stepsExecuted, resumeToken, emittedEvents, hReason,
      hEq⟩
    rw [hEq, finishAdvance_eq] at hExec
    rcases hExec.of_request with ⟨hNil, _, _⟩ |
      ⟨a, late, _, hCons, hLate⟩
    · rw [hSteps, hNil, List.append_nil] at hMem
      exact absurd hConcludes (hEarly s hMem)
    · rw [hCons] at hSteps
      exact ⟨early, v, _, a, late, context, emittedEvents,
        hSteps, hEarly, (uses_reportOutcome.exec hLate).1,
        hReason, hLate⟩

section Split

variable {t : Advance}
variable {early late : List (Step Op Answer World)}
variable {v : World}
variable {record : OutcomeRecord}
variable {a : Answer (.append (.outcome record))}

/- The outcome is the only one the advance may store. -/
theorem outcome_mem_added
    (hRuns : t.Runs host)
    (hSteps : t.steps =
      early ++ ⟨v, .append (.outcome record), a⟩ :: late)
    (hEarly : ∀ s ∈ early, ¬s.op.Concludes)
    (hLate : ∀ s ∈ late, ¬s.op.Concludes)
    (other : OutcomeRecord) :
    .outcome other ∈ t.added ↔
      a = .ok () ∧ other = record := by
  have hBefore : .outcome other ∉ storedIn early :=
    not_mem_storedIn hEarly
  have hAfter : .outcome other ∉ storedIn late :=
    not_mem_storedIn hLate
  rw [Advance.added_eq .host hRuns, hSteps,
    storedIn_append, storedIn_cons]
  cases a <;> simp [hBefore, hAfter, storedBy]

theorem failsTogether_iff
    (hSteps : t.steps =
      early ++ ⟨v, .append (.outcome record), a⟩ :: late)
    (hEarly : ∀ s ∈ early, ¬s.op.Concludes)
    (hLate : ∀ s ∈ late, ¬s.op.Concludes) :
    FailsTogether t ↔
      (a = .ok () ↔
        ∀ s ∈ late, ¬AppendFails s.op s.answer) := by
  have hFails :
      AppendFails (.append (.outcome record)) a ↔
        ¬a = .ok () := by
    cases a <;> simp [AppendFails]
  constructor
  · intro hTogether
    have hSame := hTogether early _ late hSteps trivial
    rw [hFails] at hSame
    rw [← not_iff_not, hSame]
    simp
  · intro hSame early' s late' hSteps' hConcludes
    rw [hSteps] at hSteps'
    have hOnly := split_unique hSteps'
      (C := fun s => s.op.Concludes) hEarly hConcludes
      hLate
    rw [← hOnly.1, ← hOnly.2]
    change AppendFails (.append (.outcome record)) a ↔ _
    rw [hFails, hSame]
    simp

end Split

/-
  An advance that comes to its outcome and runs to its end
  reports what it has stored exactly if the append of the
  outcome fails together with one of the appends after it.
-/
theorem reportsStored_iff
    {t : Advance}
    (hRuns : t.Runs host)
    (hFinishes : t.Finishes)
    (hEnds : t.result ≠ none) :
    ReportsStored t ↔ FailsTogether t := by
  rcases hFinishes.split hRuns with ⟨early, v, record, a,
    late, context, emittedEvents, hSteps, hEarly, hLate,
    hReason, hExec⟩
  rcases Option.ne_none_iff_exists'.mp hEnds with ⟨r, hResult⟩
  rw [hResult] at hExec
  have hReported : ∀ outcome, t.returned = some outcome ↔
      (∃ result, r = .ok result) ∧
        outcome = .fromRecord record := by
    intro outcome
    unfold Advance.returned
    rw [hResult]
    cases r with
    | error error => simp
    | ok result =>
        have hOutcome :
            result.outcome = some (.fromRecord record) :=
          (uses_reportOutcome.exec hExec).2 result rfl
        simp [hOutcome, eq_comm]
  rw [failsTogether_iff hSteps hEarly hLate,
    ← strict_reportOutcome.returns_iff hExec]
  unfold ReportsStored
  simp only [outcome_mem_added hRuns hSteps hEarly hLate,
    hReported]
  constructor
  · intro hReports
    have hSame := hReports record.triggerId record.stopReason
      record.response
    constructor
    · intro hOk
      rcases hSame.mpr ⟨record, ⟨hOk, rfl⟩, rfl, rfl, rfl⟩ with
        ⟨outcome, ⟨hReturned, _⟩, _⟩
      exact hReturned
    · intro hReturned
      rcases hSame.mp ⟨_, ⟨hReturned, rfl⟩, hReason, rfl, rfl,
        rfl⟩ with ⟨other, ⟨hOk, _⟩, _⟩
      exact hOk
  · intro hSame triggerId stopReason response
    constructor
    · rintro ⟨outcome, ⟨hReturned, hEq⟩, _, hFields⟩
      subst hEq
      exact ⟨record, ⟨hSame.mpr hReturned, rfl⟩, hFields⟩
    · rintro ⟨other, ⟨hOk, hEq⟩, hFields⟩
      subst hEq
      exact ⟨_, ⟨hSame.mp hOk, rfl⟩, hReason, hFields⟩

------------------------------------------------------------
-- Samples
------------------------------------------------------------

namespace Sample

/- A working host whose store loses every outcome. -/
def losesOutcomes
    (w : World) :
    (op : Op) → Option (Answer op)
| .append (.outcome _) => some (.error ⟨"disk full"⟩)
| op => responds.answer w op

theorem losesOutcomes_allowed
    {w : World}
    {op : Op}
    {a : Answer op}
    (hAnswer : losesOutcomes w op = some a) :
    host.allowed w op a := by
  unfold losesOutcomes at hAnswer
  split at hAnswer
  · trivial
  · exact (Script.answer_allowed hAnswer).1

/- A message answered by a response. -/
def answeredMessage
    (answer : World → (op : Op) → Option (Answer op)) :
    Advance :=
  let ran := (advance engine (.trigger message)).run host
    answer (World.empty "session")
  { engine := engine
    request := .trigger message
    before := World.empty "session"
    steps := ran.1
    after := ran.2.1
    result := ran.2.2 }

theorem answeredMessage_runs
    {answer : World → (op : Op) → Option (Answer op)}
    (hAnswer : ∀ w op a,
      answer w op = some a → host.allowed w op a) :
    (answeredMessage answer).Runs host :=
  Program.run_exec hAnswer _ _

/- Whether an advance has come to append an outcome. -/
def finishes (t : Advance) : Bool :=
  t.steps.any fun s =>
    match s.op with
    | .append (.outcome _) => true
    | _ => false

theorem finishes_of
    {t : Advance}
    (hYes : finishes t = true) :
    t.Finishes := by
  rcases List.any_eq_true.mp hYes with ⟨s, hMem, hOp⟩
  refine ⟨s, hMem, ?_⟩
  split at hOp
  · rename_i record hEq
    rw [hEq]
    trivial
  · cases hOp

end Sample

/- On a host that stores every record nothing fails. -/
theorem Sample.failsTogether_responds :
    FailsTogether (Sample.answeredMessage
      Sample.responds.answer) := by
  have hRuns : Exec reliable (World.empty "session")
      (advance Sample.engine (.trigger Sample.message))
      (Sample.answeredMessage Sample.responds.answer).steps
      (Sample.answeredMessage Sample.responds.answer).after
      (Sample.answeredMessage Sample.responds.answer).result :=
    Sample.responds.run_exec _ _
  have hStored : ∀ s ∈
      (Sample.answeredMessage Sample.responds.answer).steps,
      ¬AppendFails s.op s.answer := by
    rintro ⟨v, op, a⟩ hMem
    have hAnswered : StoreAnswered op a :=
      (hRuns.allowed _ hMem).2
    cases op with
    | append record =>
        have hOk : a = .ok () := hAnswered
        rw [hOk]
        exact id
    | _ => exact id
  intro early s late hSteps _
  rw [hSteps] at hStored
  constructor
  · intro hFails
    exact absurd hFails (hStored s (by simp))
  · rintro ⟨s', hMem, hFails⟩
    exact absurd hFails (hStored s' (by simp [hMem]))

set_option maxRecDepth 100000 in
/- A message that is answered and whose outcome is stored. -/
theorem reportsStored_answered :
    ReportsStored (Sample.answeredMessage
      Sample.responds.answer) :=
  (reportsStored_iff
    (Sample.answeredMessage_runs
      fun _ _ _ h => (Script.answer_allowed h).1)
    (Sample.finishes_of (by decide +kernel))
    (by decide +kernel)).mpr
    Sample.failsTogether_responds

set_option maxRecDepth 100000 in
/- A lost outcome is reported to the caller as a response. -/
theorem lost_outcome_reported :
    ¬∀ t : Advance, t.Runs host → t.Finishes →
      t.result ≠ none → ReportsStored t := by
  intro hAll
  have hReports := hAll
    (Sample.answeredMessage Sample.losesOutcomes)
    (Sample.answeredMessage_runs
      fun _ _ _ => Sample.losesOutcomes_allowed)
    (Sample.finishes_of (by decide +kernel))
    (by decide +kernel)
  have hReturned :
      (Sample.answeredMessage Sample.losesOutcomes).returned =
        some
          { triggerId := "0"
            stopReason := .responded
            response := some "done"
            detail := none
            stepsExecuted := 1
            idempotentReplay := false
            resumeToken := none } := by
    decide +kernel
  rcases (hReports _ _ _).mp
    ⟨_, hReturned, by simp, rfl, rfl, rfl⟩ with
    ⟨record, hMem, _⟩
  have hNone :
      (Sample.answeredMessage Sample.losesOutcomes).added.any
        SessionRecord.isOutcome = false := by
    decide +kernel
  rw [List.any_eq_false] at hNone
  exact hNone _ hMem rfl

end RainEngine
