import RainEngine.Batches.Calm
import RainEngine.Sessions.Turns

/-
  This file shows that an idempotency key gets one outcome. A
  trigger is only recorded under a key without an outcome, so
  no trigger that is still open has an outcome under its key;
  this carries over from advance to advance.

  Key definitions include:
    * `outcomesOf`
    * `Orderly`
    * `Replays`

  Key theorems include:
    * `orderly_advance`
    * `replays_of_recorded`
    * `run_outcome_once`
-/

namespace RainEngine

open Effects

------------------------------------------------------------
-- Outcomes Of A Key
------------------------------------------------------------

/- The outcomes recorded under a key. -/
def outcomesOf
    (key : String)
    (records : List SessionRecord) :
    List OutcomeRecord :=
  (records.filterMap SessionRecord.asOutcome).filter
    (·.idempotencyKey = some key)

section Outcomes

variable {key : String}
variable {records : List SessionRecord}

theorem mem_outcomesOf
    {outcome : OutcomeRecord} :
    outcome ∈ outcomesOf key records ↔
      .outcome outcome ∈ records ∧
        outcome.idempotencyKey = some key := by
  simp only [outcomesOf, List.mem_filter, List.mem_filterMap,
    decide_eq_true_eq]
  refine and_congr_left ?_
  intro _
  constructor
  · rintro ⟨record, hMem, hAs⟩
    cases record with
    | outcome found =>
        cases hAs
        exact hMem
    | _ => cases hAs
  · intro hMem
    exact ⟨_, hMem, rfl⟩

theorem outcomesOf_marks :
    outcomesOf key (marks records) =
      outcomesOf key records := by
  have hIgnores :
      Logs.Ignores SessionRecord.isMark
        SessionRecord.asOutcome := by
    intro record hOther
    cases record <;> first | rfl | cases hOther
  unfold outcomesOf marks
  rw [Logs.filterMap_view hIgnores]

theorem outcomesOf_other
    {record : SessionRecord}
    (hOther : record.asOutcome = none) :
    outcomesOf key (records ++ [record]) =
      outcomesOf key records := by
  unfold outcomesOf
  rw [List.filterMap_append, List.filter_append]
  simp [hOther]

theorem outcomesOf_trigger
    {trigger : TriggerRecord} :
    outcomesOf key (records ++ [.trigger trigger]) =
      outcomesOf key records :=
  outcomesOf_other rfl

theorem outcomesOf_outcome
    {outcome : OutcomeRecord} :
    outcomesOf key (records ++ [.outcome outcome]) =
      outcomesOf key records ++
        (if outcome.idempotencyKey = some key then [outcome]
        else []) := by
  unfold outcomesOf
  rw [List.filterMap_append, List.filter_append]
  simp only [List.filterMap_cons, SessionRecord.asOutcome,
    List.filterMap_nil, List.filter_cons, List.filter_nil,
    decide_eq_true_eq]

/- The store answers with the newest outcome of a key. -/
theorem findOutcomeByIdempotencyKey_eq :
    findOutcomeByIdempotencyKey records key =
      (outcomesOf key records).getLast?.map
        EngineOutcome.fromRecord := by
  unfold findOutcomeByIdempotencyKey
  induction records using List.reverseRecOn with
  | nil => rfl
  | append_singleton records record ih =>
      rw [Logs.findSomeRev?_snoc, ih]
      cases record with
      | outcome outcome =>
          rw [outcomesOf_outcome]
          dsimp only
          by_cases hKey : outcome.idempotencyKey = some key
          · rw [if_pos hKey, if_pos hKey, List.getLast?_concat]
            rfl
          · rw [if_neg hKey, if_neg hKey, List.append_nil,
              Option.none_or]
      | _ => rw [outcomesOf_other rfl, Option.none_or]

theorem outcomesOf_of_find_none
    (hNone : findOutcomeByIdempotencyKey records key = none) :
    outcomesOf key records = [] := by
  rw [findOutcomeByIdempotencyKey_eq] at hNone
  simpa using hNone

end Outcomes

------------------------------------------------------------
-- Orderly Sessions
------------------------------------------------------------

/- No outcome has been recorded under the key. -/
def Unanswered
    (key : Option String)
    (records : List SessionRecord) :
    Prop :=
  ∀ name, key = some name → outcomesOf name records = []

/-
  A key has at most one outcome, and none as long as one of
  its triggers is open.
-/
structure Orderly (records : List SessionRecord) : Prop where
  once : ∀ key, (outcomesOf key records).length ≤ 1
  awaited :
    ∀ trigger, .trigger trigger ∈ sinceLastOutcome records →
      Unanswered trigger.idempotencyKey records

section Orderly

variable {records : List SessionRecord}
variable {triggerId : String}
variable {key : Option String}
variable {w w' : World}
variable {r : Option (Except EngineError AdvanceResult)}

theorem orderly_nil : Orderly [] where
  once := fun _ => Nat.zero_le 1
  awaited := by simp [sinceLastOutcome]

theorem Orderly.trigger
    {trigger : TriggerRecord}
    (hOrderly : Orderly records)
    (hKey : Unanswered trigger.idempotencyKey records) :
    Orderly (records ++ [.trigger trigger]) := by
  constructor
  · intro key
    rw [outcomesOf_trigger]
    exact hOrderly.once key
  · intro other hMem name hName
    rw [outcomesOf_trigger]
    rw [sinceLastOutcome_append] at hMem
    rcases List.mem_append.mp hMem with hOld | hNew
    · exact hOrderly.awaited other hOld name hName
    · rw [List.mem_singleton] at hNew
      cases hNew
      exact hKey name hName

theorem Orderly.outcome
    {outcome : OutcomeRecord}
    (hOrderly : Orderly records)
    (hKey : Unanswered outcome.idempotencyKey records) :
    Orderly (records ++ [.outcome outcome]) := by
  constructor
  · intro key
    rw [outcomesOf_outcome]
    by_cases hSame : outcome.idempotencyKey = some key
    · rw [if_pos hSame, hKey key hSame]
      exact Nat.le_refl 1
    · rw [if_neg hSame, List.append_nil]
      exact hOrderly.once key
  · intro trigger hMem
    rw [sinceLastOutcome_append] at hMem
    cases hMem

/- A turn for an unanswered key keeps the session orderly. -/
theorem Orderly.turnEnd
    (hOrderly : Orderly records)
    (hKey : Unanswered key records)
    (hEnd : TurnEnd triggerId key records w r) :
    Orderly (marks w.ledger) := by
  cases hEnd with
  | opened hMarks _ =>
      rw [hMarks]
      exact hOrderly
  | concluded outcome hConcluded _ =>
      rw [hConcluded.2]
      apply hOrderly.outcome
      rw [hConcluded.1.key]
      exact hKey

theorem unanswered_of_prior
    {request : ProcessRequest}
    (hPrior : priorOutcome w.ledger request = none) :
    Unanswered request.idempotencyKey (marks w.ledger) := by
  intro name hName
  unfold priorOutcome at hPrior
  rw [hName] at hPrior
  rw [outcomesOf_marks]
  exact outcomesOf_of_find_none hPrior

theorem unanswered_active
    {trigger : TriggerRecord}
    (hOrderly : Orderly (marks w.ledger))
    (hActive : activeTrigger w.ledger = some trigger) :
    Unanswered trigger.idempotencyKey (marks w.ledger) := by
  rw [← activeTrigger_marks] at hActive
  exact hOrderly.awaited trigger (activeTrigger_mem hActive)

/- Every advance keeps the session orderly. -/
theorem orderly_advance
    {t : Advance}
    (hRuns : t.Runs reliable)
    (hOrderly : Orderly (marks t.before.ledger)) :
    Orderly (marks t.after.ledger) := by
  rcases t with ⟨engine, request, w, steps, w', r⟩
  cases request with
  | trigger request =>
      cases exec_advanceTrigger hRuns with
      | stopped hLedger _ _ =>
          rw [hLedger]
          exact hOrderly
      | replayed _ hLedger _ _ =>
          rw [hLedger]
          exact hOrderly
      | recorded _ hPrior hEnd =>
          have hKey := unanswered_of_prior hPrior
          refine (hOrderly.trigger hKey).turnEnd ?_ hEnd
          intro name hName
          rw [outcomesOf_trigger]
          exact hKey name hName
  | continueWith request =>
      cases exec_advanceContinue hRuns with
      | stopped hLedger _ =>
          rw [hLedger]
          exact hOrderly
      | nothing _ _ hLedger _ =>
          rw [hLedger]
          exact hOrderly
      | resumed hActive hEnd =>
          exact hOrderly.turnEnd
            (unanswered_active hOrderly hActive) hEnd

theorem run_orderly
    {sessionId : String}
    {run : List Advance}
    (hRun : Run reliable (World.empty sessionId) run w) :
    Orderly (marks w.ledger) :=
  (hRun.preserves
    (I := fun w => Orderly (marks w.ledger))
    (fun _ _ hRuns => orderly_advance hRuns)
    orderly_nil).2

end Orderly

------------------------------------------------------------
-- Replays
------------------------------------------------------------

/- The outcome as a repeated request gets it. -/
def replayOf (outcome : OutcomeRecord) : EngineOutcome :=
  { EngineOutcome.fromRecord outcome with
    idempotentReplay := true }

/-
  The request is answered with the recorded outcome. It only
  reads the store, and it does return.
-/
structure Replays
    (engine : AgentEngine)
    (request : ProcessRequest)
    (outcome : OutcomeRecord)
    (w : World) : Prop where
  returns :
    ∃ steps w',
      Exec reliable w (advance engine (.trigger request))
        steps w'
        (some (.ok (outcomeOnly (replayOf outcome) [])))
  only :
    ∀ steps w' r,
      Exec reliable w (advance engine (.trigger request))
        steps w' r →
        w'.ledger = w.ledger ∧
        (∀ s ∈ steps, s.op.Quiet) ∧
        ∀ result, r = some result →
          result = .ok (outcomeOnly (replayOf outcome) [])

section Replays

variable {engine : AgentEngine}
variable {request : ProcessRequest}
variable {outcome : OutcomeRecord}
variable {w : World}

theorem priorOutcome_of_mem
    {key : String}
    (hOnce : (outcomesOf key w.ledger).length ≤ 1)
    (hMem : .outcome outcome ∈ w.ledger)
    (hOutcome : outcome.idempotencyKey = some key)
    (hRequest : request.idempotencyKey = some key) :
    priorOutcome w.ledger request =
      some (.fromRecord outcome) := by
  have hFound : outcome ∈ outcomesOf key w.ledger :=
    mem_outcomesOf.mpr ⟨hMem, hOutcome⟩
  have hOnly : outcomesOf key w.ledger = [outcome] := by
    cases hList : outcomesOf key w.ledger with
    | nil =>
        rw [hList] at hFound
        cases hFound
    | cons first rest =>
        rw [hList, List.length_cons] at hOnce
        have hRest : rest = [] :=
          List.eq_nil_of_length_eq_zero (by omega)
        subst hRest
        rw [hList, List.mem_singleton] at hFound
        rw [hFound]
  unfold priorOutcome
  rw [hRequest, Option.bind_some,
    findOutcomeByIdempotencyKey_eq, hOnly]
  rfl

/- A request with a prior outcome replays it. -/
theorem replays_of_prior
    {key : String}
    (hRequest : request.idempotencyKey = some key)
    (hPrior :
      priorOutcome w.ledger request =
        some (.fromRecord outcome)) :
    Replays engine request outcome w := by
  constructor
  · rcases exists_calm_answer w .newUuid nofun with
      ⟨uuid, hFresh, _⟩
    have hFound :
        findOutcomeByIdempotencyKey w.ledger key =
          some (.fromRecord outcome) := by
      unfold priorOutcome at hPrior
      rw [hRequest] at hPrior
      exact hPrior
    let found : Answer (.findOutcome key) :=
      .ok (some (.fromRecord outcome))
    have hLookup : reliable.allowed (w.issue uuid)
        (.findOutcome key) found :=
      ⟨hFound.symm, _, rfl⟩
    have hReturn :
        Exec reliable (w.issue uuid)
          (pure (outcomeOnly (replayOf outcome) []) :
            EngineM AdvanceResult) [] (w.issue uuid) _ :=
      .pure
    refine ⟨[⟨w, .newUuid, uuid⟩,
      ⟨w.issue uuid, .findOutcome key, found⟩],
      w.issue uuid, ?_⟩
    show Exec reliable w (advanceTrigger engine request) _ _ _
    unfold advanceTrigger
    rw [hRequest]
    exact .request ⟨hFresh, trivial⟩ (.request hLookup hReturn)
  · intro steps w' r hExec
    cases exec_advanceTrigger hExec with
    | stopped hLedger hSteps hResult =>
        refine ⟨hLedger, hSteps, ?_⟩
        simp [hResult]
    | @replayed prior hFound hLedger hSteps hResult =>
        rw [hPrior] at hFound
        cases hFound
        refine ⟨hLedger, hSteps, ?_⟩
        rw [hResult]
        rintro result ⟨⟩
        rfl
    | recorded _ hNone _ =>
        rw [hPrior] at hNone
        cases hNone

end Replays

/-
  In every run a key gets at most one outcome, and from then
  on its requests are answered with it.
-/
theorem run_outcome_once
    {sessionId : String}
    {run : List Advance}
    {w : World}
    (hRun : Run reliable (World.empty sessionId) run w) :
    (∀ key, (outcomesOf key w.ledger).length ≤ 1) ∧
      ∀ key outcome, .outcome outcome ∈ w.ledger →
        outcome.idempotencyKey = some key →
        ∀ engine request,
          request.idempotencyKey = some key →
            Replays engine request outcome w := by
  have hOnce : ∀ key, (outcomesOf key w.ledger).length ≤ 1 := by
    intro key
    rw [← outcomesOf_marks]
    exact (run_orderly hRun).once key
  refine ⟨hOnce, ?_⟩
  intro key outcome hMem hOutcome engine request hRequest
  exact replays_of_prior hRequest
    (priorOutcome_of_mem (hOnce key) hMem hOutcome hRequest)

------------------------------------------------------------
-- A Repeated Request
------------------------------------------------------------

namespace Sample

/- A message under an idempotency key. -/
def keyedMessage : ProcessRequest :=
  { message with idempotencyKey := some "key" }

def keyedTurns : List (Script × AdvanceRequest) :=
  [(callsFirst [call "a" (.object [])],
      .trigger keyedMessage),
    (callsFirst [], .continueWith resume)]

/- The outcome the two advances record. -/
def keyedOutcome : OutcomeRecord where
  triggerId := "0"
  idempotencyKey := some "key"
  stopReason := .responded
  response := some "done"
  detail := none
  stepsExecuted := 2
  resumeToken := none

end Sample

set_option maxRecDepth 100000 in
/- The second of two messages under a key is a replay. -/
theorem run_outcome_once_message :
    Replays Sample.engine Sample.keyedMessage
      Sample.keyedOutcome
      (Script.session Sample.engine Sample.keyedTurns
        (World.empty "session")) := by
  have hRun := Script.session_run Sample.engine
    Sample.keyedTurns (World.empty "session")
  have hFound :
      Sample.keyedOutcome ∈ outcomesOf "key"
        (Script.session Sample.engine Sample.keyedTurns
          (World.empty "session")).ledger := by
    decide +kernel
  have hRecorded := (mem_outcomesOf.mp hFound).1
  exact (run_outcome_once hRun).2 "key" Sample.keyedOutcome
    hRecorded rfl Sample.engine Sample.keyedMessage rfl

end RainEngine
