import RainEngine.Effects.Traces
import RainEngine.Batches.Completion

/-
  This file compares the retries of a started call with the
  retry law: how often its executor is invoked, when it is
  not invoked again, what the call reports, and how long the
  kernel waits between two invocations.

  Key definitions include:
    * `Attempts`
    * `RetryLaw`
    * `startedTask`

  Key theorems include:
    * `runAttempts_attempts`
    * `retryLaw_iff`
-/

namespace RainEngine

open Effects

------------------------------------------------------------
-- Invocations And Waits
------------------------------------------------------------

def invocationOf : Exchange Answer → Option SkillAnswer
| ⟨.execute _ _, answer⟩ => some answer
| _ => none

def waitOf : Exchange Answer → Option Nat
| ⟨.sleep ms, _⟩ => some ms
| _ => none

/- What the executor has answered, in order. -/
def invocations
    (trace : List (Exchange Answer)) :
    List SkillAnswer :=
  trace.filterMap invocationOf

/- The waits, in order. -/
def waits (trace : List (Exchange Answer)) : List Nat :=
  trace.filterMap waitOf

/- The answers are the first ones of a sequence. -/
def Follows : (Nat → SkillAnswer) → List SkillAnswer → Prop
| _, [] => True
| results, answer :: rest =>
    answer = results 0 ∧ Follows (fun i => results (i + 1)) rest

namespace SkillAnswer

def isRetryable : SkillAnswer → Bool
| .returned output => isRetryableSkillError output
| .panicked _ => false

/- The task of a call whose last invocation answered this. -/
def task (node : ToolNode) : SkillAnswer → ToolTask
| .panicked joinError => .error joinError
| .returned (.ok value) =>
    .ok
      { callId := node.callId
        skillName := node.skillName
        output := .ok value }
| .returned (.error error) =>
    .ok
      { callId := node.callId
        skillName := node.skillName
        output := .error
          { kind := error.kind
            message := error.message } }

def outcome :
    SkillAnswer → Except String
      (Except SkillExecutionError Json)
| .panicked joinError => .error joinError
| .returned output => .ok output

end SkillAnswer

/-
  The invocations and waits of a call with a number of
  attempts and a first wait, and its last answer.
-/
inductive Attempts (policy : RetryPolicy) :
    Nat → Nat → List SkillAnswer → List Nat → SkillAnswer →
      Prop where
  | last {remaining interval : Nat} {answer : SkillAnswer}
      (hLast :
        remaining = 0 ∨ answer.isRetryable = false) :
      Attempts policy (remaining + 1) interval [answer] []
        answer
  | again {remaining interval : Nat}
      {answer final : SkillAnswer}
      {answers : List SkillAnswer} {pauses : List Nat}
      (hRetryable : answer.isRetryable = true)
      (hRest :
        Attempts policy remaining
          (nextInterval policy interval) answers pauses
          final) :
      Attempts policy (remaining + 1) interval
        (answer :: answers) (interval :: pauses) final

namespace Attempts

variable {policy : RetryPolicy}
variable {remaining interval : Nat}
variable {answers : List SkillAnswer}
variable {pauses : List Nat}
variable {final : SkillAnswer}

theorem length_le
    (hAttempts :
      Attempts policy remaining interval answers pauses
        final) :
    answers.length ≤ remaining := by
  induction hAttempts with
  | last hLast => simp
  | again hRetryable hRest ih =>
      rw [List.length_cons]
      omega

theorem getLast?_eq
    (hAttempts :
      Attempts policy remaining interval answers pauses
        final) :
    answers.getLast? = some final := by
  induction hAttempts with
  | last hLast => rfl
  | again hRetryable hRest ih =>
      rw [List.getLast?_cons, ih]
      rfl

theorem isRetryable_of_mem
    (hAttempts :
      Attempts policy remaining interval answers pauses
        final) :
    ∀ answer ∈ answers.dropLast,
      answer.isRetryable = true := by
  induction hAttempts with
  | last hLast => simp
  | @again _ _ answer _ answers _ hRetryable hRest ih =>
      have hSome : answers ≠ [] := by
        intro hNil
        have hFinal := hRest.getLast?_eq
        rw [hNil] at hFinal
        cases hFinal
      intro other hMem
      rw [List.dropLast_cons_of_ne_nil hSome] at hMem
      cases List.mem_cons.mp hMem with
      | inl hFirst =>
          rw [hFirst]
          exact hRetryable
      | inr hLater => exact ih other hLater

theorem nextInterval_le (current : Nat) :
    nextInterval policy current ≤ policy.maxIntervalMs :=
  Nat.min_le_right _ _

/- Only the first wait may be longer than the cap. -/
theorem wait_cases
    (hAttempts :
      Attempts policy remaining interval answers pauses
        final) :
    ∀ ms ∈ pauses,
      ms = interval ∨ ms ≤ policy.maxIntervalMs := by
  induction hAttempts with
  | last hLast => simp
  | @again _ interval _ _ _ pauses hRetryable hRest ih =>
      intro ms hMem
      cases List.mem_cons.mp hMem with
      | inl hFirst => exact Or.inl hFirst
      | inr hLater =>
          have hNext := @nextInterval_le policy interval
          cases ih ms hLater with
          | inl hEq => exact Or.inr (hEq ▸ hNext)
          | inr hLe => exact Or.inr hLe

theorem head_wait
    (hAttempts :
      Attempts policy remaining interval answers pauses
        final)
    (hPauses : pauses ≠ []) :
    interval ∈ pauses ∧ 2 ≤ remaining ∧
      ∃ answer rest, answers = answer :: rest ∧
        answer.isRetryable = true := by
  cases hAttempts with
  | last hLast => exact absurd rfl hPauses
  | @again remaining _ answer _ answers _ hRetryable hRest =>
      refine ⟨List.mem_cons_self, ?_, answer, answers, rfl,
        hRetryable⟩
      have hRemaining : remaining ≠ 0 := by
        intro hZero
        subst hZero
        cases hRest
      omega

end Attempts

------------------------------------------------------------
-- The Retry Law
------------------------------------------------------------

/- What the kernel promises about the attempts of a call. -/
structure RetryLaw
    (limit maxIntervalMs : Nat)
    (node : ToolNode)
    (answers : List SkillAnswer)
    (pauses : List Nat)
    (task : ToolTask) : Prop where
  invoked : 1 ≤ answers.length
  bounded : answers.length ≤ max 1 limit
  stops :
    ∀ answer ∈ answers.dropLast, answer.isRetryable = true
  result :
    ∀ answer, answers.getLast? = some answer →
      task = answer.task node
  capped : ∀ ms ∈ pauses, ms ≤ maxIntervalMs

/- The least of the three limits on the attempts of a call. -/
def retryLimit
    (policy : EnginePolicy)
    (manifest : SkillManifest)
    (node : ToolNode) :
    Nat :=
  (node.retryPolicy.policy.maxAttempts.min
    manifest.resourcePolicy.retryPolicy.maxAttempts).min
      policy.maxToolRetriesPerStep

/- Start a node that has passed the gates and run its task. -/
def startedTask
    (context : AgentContext)
    (graph : ToolExecutionGraph)
    (node : ToolNode)
    (skill : RegisteredSkill)
    (step attempt : Nat) :
    EngineM ToolTask := do
  match ← startNode context graph node skill step attempt with
  | .executable call => runPreparedCall call
  | .immediate result => pure (.ok result)

/-
  The call has an attempt, and its first wait is capped
  unless there is none.
-/
def MeetsRetryLaw
    (limit : Nat)
    (policy : RetryPolicy)
    (results : Nat → SkillAnswer) :
    Prop :=
  limit ≠ 0 ∧
    (policy.initialIntervalMs ≤ policy.maxIntervalMs ∨
      limit = 1 ∨ (results 0).isRetryable = false)

section Runs

variable {prepared : PreparedCall}

/- The attempts of a call are as its policy says. -/
theorem runAttempts_attempts
    (remaining interval : Nat)
    (output : Except SkillExecutionError Json) :
    Yields (fun _ => True)
      (fun trace result =>
        ∃ final, result = final.outcome ∧
          Attempts prepared.retryPolicy (remaining + 1)
            interval (invocations trace) (waits trace) final)
      (runAttempts prepared (remaining + 1) interval
        output) := by
  induction remaining generalizing interval output with
  | zero =>
      refine ⟨trivial, ?_⟩
      intro answer
      cases answer with
      | panicked joinError =>
          exact ⟨trivial, .panicked joinError, rfl,
            .last (Or.inl rfl)⟩
      | returned result =>
          show Yields _ _ (if _ then _ else _)
          rw [if_pos (Or.inr (Or.inr rfl))]
          exact ⟨trivial, .returned result, rfl,
            .last (Or.inl rfl)⟩
  | succ remaining ih =>
      refine ⟨trivial, ?_⟩
      intro answer
      cases answer with
      | panicked joinError =>
          exact ⟨trivial, .panicked joinError, rfl,
            .last (Or.inr rfl)⟩
      | returned result =>
          show Yields _ _ (if _ then _ else _)
          split
          · rename_i hStop
            refine ⟨trivial, .returned result, rfl,
              .last (Or.inr ?_)⟩
            cases result with
            | ok value => rfl
            | error error =>
                simpa [Except.isOk, Except.toBool,
                  SkillAnswer.isRetryable] using hStop
          · rename_i hAgain
            refine ⟨trivial, fun _ => ?_⟩
            refine Yields.mono (fun _ _ => trivial) ?_
              (ih (nextInterval prepared.retryPolicy interval)
                result)
            intro trace final hFinal
            obtain ⟨last, hLast, hAttempts⟩ := hFinal
            refine ⟨last, hLast, .again ?_ hAttempts⟩
            simp only [not_or, Bool.not_eq_true,
              Bool.not_eq_false'] at hAgain
            simpa [SkillAnswer.isRetryable] using hAgain.2.1

/-
  The executor may answer as any sequence says; after a
  retryable answer the first wait is not shortened.
-/
theorem exists_attempts
    {R : List (Exchange Answer) →
      Except String (Except SkillExecutionError Json) → Prop}
    (remaining interval : Nat)
    (output : Except SkillExecutionError Json)
    (results : Nat → SkillAnswer)
    (hYields :
      Yields (fun _ => True) R
        (runAttempts prepared (remaining + 1) interval
          output)) :
    ∃ trace result, R trace result ∧
      Follows results (invocations trace) ∧
      (remaining ≠ 0 → (results 0).isRetryable = true →
        interval ∈ waits trace) := by
  induction remaining generalizing interval output results R with
  | zero =>
      have hFirst := hYields.2 (results 0)
      cases hAnswer : results 0 with
      | panicked joinError =>
          rw [hAnswer] at hFirst
          refine ⟨_, _, hFirst.2, ⟨hAnswer.symm, trivial⟩, ?_⟩
          intro hZero
          exact absurd rfl hZero
      | returned result =>
          rw [hAnswer] at hFirst
          change Yields _ _ (if _ then _ else _) at hFirst
          rw [if_pos (Or.inr (Or.inr rfl))] at hFirst
          refine ⟨_, _, hFirst.2, ⟨hAnswer.symm, trivial⟩, ?_⟩
          intro hZero
          exact absurd rfl hZero
  | succ remaining ih =>
      have hFirst := hYields.2 (results 0)
      cases hAnswer : results 0 with
      | panicked joinError =>
          rw [hAnswer] at hFirst
          refine ⟨_, _, hFirst.2, ⟨hAnswer.symm, trivial⟩, ?_⟩
          intro _ hRetryable
          cases hRetryable
      | returned result =>
          rw [hAnswer] at hFirst
          change Yields _ _ (if _ then _ else _) at hFirst
          split at hFirst
          · rename_i hStop
            refine ⟨_, _, hFirst.2, ⟨hAnswer.symm, trivial⟩,
              ?_⟩
            intro _ hRetryable
            cases result with
            | ok value => cases hRetryable
            | error error =>
                simp only [SkillAnswer.isRetryable]
                  at hRetryable
                simp [hRetryable, Except.isOk,
                  Except.toBool] at hStop
          · obtain ⟨trace, final, hR, hFollows, _⟩ :=
              ih (nextInterval prepared.retryPolicy interval)
                result (fun i => results (i + 1))
                (hFirst.2 ())
            refine ⟨_, final, hR, ⟨hAnswer.symm, hFollows⟩, ?_⟩
            intro _ _
            exact List.mem_cons_self

end Runs

section Calls

variable (context : AgentContext)
variable (graph : ToolExecutionGraph)
variable (node : ToolNode)
variable (skill : RegisteredSkill)
variable (step attempt : Nat)

/- What a started node hands to its task. -/
def startedCall : PreparedCall where
  callId := node.callId
  name := node.skillName
  args := node.args
  manifest :=
    skill.manifest.withEffectivePolicy context.metadata.policy
  backend := skill.backend
  contextSnapshot := context.toSnapshot step
  dryRun := node.dryRun
  retryPolicy :=
    callRetryPolicy context.metadata.policy
      (skill.manifest.effectiveResourcePolicy
        context.metadata.policy) node

theorem startedCall_maxAttempts :
    (startedCall context node skill
      step).retryPolicy.maxAttempts =
      retryLimit context.metadata.policy skill.manifest
        node :=
  rfl

/- The records of a start come before the task's requests. -/
theorem startedTask_yields
    {R : List (Exchange Answer) → ToolTask → Prop}
    (hTask :
      ∀ records, invocations records = [] →
        waits records = [] →
          Yields (fun _ => True)
            (fun trace => R (records ++ trace))
            (runPreparedCall
              (startedCall context node skill step))) :
    Yields (fun _ => True) R
      (startedTask context graph node skill step
        attempt) := by
  refine ⟨trivial, fun checkpointId => ⟨trivial, ?_⟩⟩
  intro stored
  cases stored with
  | error error => trivial
  | ok _ =>
      refine ⟨trivial, ?_⟩
      intro stored
      cases stored with
      | error error => trivial
      | ok _ => exact hTask [_, _, _] rfl rfl

theorem exists_startedTask
    {R : List (Exchange Answer) → ToolTask → Prop}
    (hYields :
      Yields (fun _ => True) R
        (startedTask context graph node skill step
          attempt)) :
    ∃ records, invocations records = [] ∧
      waits records = [] ∧
        Yields (fun _ => True)
          (fun trace => R (records ++ trace))
          (runPreparedCall
            (startedCall context node skill step)) := by
  have hRecorded := (hYields.2 "").2 (.ok ())
  exact ⟨[_, _, _], rfl, rfl, hRecorded.2 (.ok ())⟩

theorem invocations_append
    {records trace : List (Exchange Answer)}
    (hRecords : invocations records = []) :
    invocations (records ++ trace) = invocations trace := by
  unfold invocations at hRecords ⊢
  rw [List.filterMap_append, hRecords, List.nil_append]

theorem waits_append
    {records trace : List (Exchange Answer)}
    (hRecords : waits records = []) :
    waits (records ++ trace) = waits trace := by
  unfold waits at hRecords ⊢
  rw [List.filterMap_append, hRecords, List.nil_append]

/- The task reports what the last invocation answered. -/
theorem runPreparedCall_attempts
    {limit : Nat}
    (hLimit :
      retryLimit context.metadata.policy skill.manifest node =
        limit + 1) :
    Yields (fun _ => True)
      (fun trace task =>
        ∃ final : SkillAnswer, task = final.task node ∧
          Attempts
            (startedCall context node skill step).retryPolicy
            (limit + 1)
            node.retryPolicy.policy.initialIntervalMs
            (invocations trace) (waits trace) final)
      (runPreparedCall
        (startedCall context node skill step)) := by
  unfold runPreparedCall
  rw [startedCall_maxAttempts, hLimit]
  apply Yields.bind (runAttempts_attempts limit _ _)
  · intro trace _
    trivial
  · intro trace result hResult
    obtain ⟨final, rfl, hAttempts⟩ := hResult
    cases final with
    | panicked joinError =>
        refine ⟨trivial, .panicked joinError, rfl, ?_⟩
        rw [List.append_nil]
        exact hAttempts
    | returned output =>
        refine ⟨trivial, .returned output, ?_, ?_⟩
        · cases output <;> rfl
        · rw [List.append_nil]
          exact hAttempts

theorem Attempts.retryLaw
    {limit : Nat}
    {policy : RetryPolicy}
    {results : Nat → SkillAnswer}
    {answers : List SkillAnswer}
    {pauses : List Nat}
    {final : SkillAnswer}
    (hAttempts :
      Attempts policy (limit + 1) policy.initialIntervalMs
        answers pauses final)
    (hFollows : Follows results answers)
    (hMeets : MeetsRetryLaw (limit + 1) policy results) :
    RetryLaw (limit + 1) policy.maxIntervalMs node answers
      pauses (final.task node) where
  invoked := by
    have hLast := hAttempts.getLast?_eq
    cases answers with
    | nil => cases hLast
    | cons answer rest =>
        rw [List.length_cons]
        omega
  bounded := by
    have hLength := hAttempts.length_le
    omega
  stops := hAttempts.isRetryable_of_mem
  result := by
    intro answer hAnswer
    rw [hAttempts.getLast?_eq] at hAnswer
    cases hAnswer
    rfl
  capped := by
    intro ms hMem
    cases hAttempts.wait_cases ms hMem with
    | inr hLe => exact hLe
    | inl hFirst =>
        obtain ⟨_, hTwo, answer, rest, hAnswers, hRetryable⟩ :=
          hAttempts.head_wait (List.ne_nil_of_mem hMem)
        rw [hFirst]
        cases hMeets.2 with
        | inl hCap => exact hCap
        | inr hSingle =>
            cases hSingle with
            | inl hOne => omega
            | inr hFinal =>
                rw [hAnswers] at hFollows
                rw [← hFollows.1, hRetryable] at hFinal
                cases hFinal

/- The traces of a started call obey the retry law. -/
def ObeysRetryLaw (results : Nat → SkillAnswer) : Prop :=
  Yields (fun _ => True)
    (fun trace task =>
      Follows results (invocations trace) →
        RetryLaw
          (retryLimit context.metadata.policy skill.manifest
            node)
          node.retryPolicy.policy.maxIntervalMs node
          (invocations trace) (waits trace) task)
    (startedTask context graph node skill step attempt)

theorem MeetsRetryLaw.obeys
    {results : Nat → SkillAnswer}
    (hMeets :
      MeetsRetryLaw
        (retryLimit context.metadata.policy skill.manifest
          node)
        node.retryPolicy.policy results) :
    ObeysRetryLaw context graph node skill step attempt
      results := by
  apply startedTask_yields
  intro records hNone hPauses
  simp only [invocations_append hNone, waits_append hPauses]
  cases hLimit : retryLimit context.metadata.policy
      skill.manifest node with
  | zero => exact absurd hLimit hMeets.1
  | succ limit =>
      rw [hLimit] at hMeets
      refine Yields.mono (fun _ h => h) ?_
        (runPreparedCall_attempts context node skill step
          hLimit)
      intro trace task hTask hFollows
      obtain ⟨final, rfl, hAttempts⟩ := hTask
      exact hAttempts.retryLaw node hFollows hMeets

theorem ObeysRetryLaw.meets
    {results : Nat → SkillAnswer}
    (hObeys :
      ObeysRetryLaw context graph node skill step attempt
        results) :
    MeetsRetryLaw
      (retryLimit context.metadata.policy skill.manifest node)
      node.retryPolicy.policy results := by
  obtain ⟨records, hNone, hPauses, hTask⟩ :=
    exists_startedTask context graph node skill step attempt
      hObeys
  simp only [invocations_append hNone, waits_append hPauses]
    at hTask
  unfold runPreparedCall at hTask
  rw [startedCall_maxAttempts] at hTask
  cases hLimit : retryLimit context.metadata.policy
      skill.manifest node with
  | zero =>
      -- Without an attempt the task ends at once.
      rw [hLimit] at hTask
      have hLaw := hTask.2 trivial
      exact absurd hLaw.invoked (by decide)
  | succ limit =>
      refine ⟨Nat.succ_ne_zero limit, ?_⟩
      by_contra hLong
      rw [not_or, not_or] at hLong
      obtain ⟨hCap, hSeveral, hRetryable⟩ := hLong
      rw [Bool.not_eq_false] at hRetryable
      rw [hLimit] at hTask
      obtain ⟨trace, output, hReports, hFollows, hWait⟩ :=
        exists_attempts limit _ _ results hTask.of_bind
      have hFirst := hWait (by omega) hRetryable
      cases output with
      | error joinError =>
          have hLaw := hReports.2
          simp only [List.append_nil] at hLaw
          exact hCap ((hLaw hFollows).capped _ hFirst)
      | ok output =>
          have hLaw := hReports.2
          simp only [List.append_nil] at hLaw
          exact hCap ((hLaw hFollows).capped _ hFirst)

/-
  A started call obeys the retry law, for the answers its
  executor gives in turn, exactly if it has an attempt and
  its first wait is not above the cap, or never comes.
-/
theorem retryLaw_iff
    (results : Nat → SkillAnswer) :
    ObeysRetryLaw context graph node skill step attempt
        results ↔
      MeetsRetryLaw
        (retryLimit context.metadata.policy skill.manifest
          node)
        node.retryPolicy.policy results :=
  ⟨ObeysRetryLaw.meets context graph node skill step attempt,
    MeetsRetryLaw.obeys context graph node skill step attempt⟩

end Calls

/- A call that asks for no attempt. -/
def unattempted : PlannedSkillCall :=
  { Sample.call "a" .null with
    retryPolicy := ⟨{ RetryPolicy.default with
      maxAttempts := 0 }⟩ }

/- A call that asks for a first wait above its own cap. -/
def impatient : PlannedSkillCall :=
  { Sample.call "a" .null with
    retryPolicy := ⟨{ RetryPolicy.default with
      initialIntervalMs := 60000 }⟩ }

/-
  The first is started and never invoked; the second waits a
  minute after a trap, where its cap is ten seconds.
-/
theorem sample_calls_break_retry_law :
    ¬ObeysRetryLaw firstContext
        (newGraph firstContext 0 [unattempted])
        (unattempted.toNode 0)
        ⟨Sample.manifest "echo", .wasm "wasm"⟩ 0 1
        (fun _ => .returned (.ok .null)) ∧
      ¬ObeysRetryLaw firstContext
        (newGraph firstContext 0 [impatient])
        (impatient.toNode 0)
        ⟨Sample.manifest "echo", .wasm "wasm"⟩ 0 1
        (fun _ => .returned
          (.error { kind := .trap, message := "trap" })) := by
  constructor
  · intro hObeys
    have hMeets := hObeys.meets
    exact hMeets.1 rfl
  · intro hObeys
    have hMeets := hObeys.meets
    have hCap := hMeets.2
    revert hCap
    decide

end RainEngine
