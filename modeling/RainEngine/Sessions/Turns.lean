import RainEngine.Advances.Footprint
import RainEngine.Sessions.Marks
import RainEngine.Sessions.Runs

/-
  This file describes what an advance does to the marks of a
  session whose store does not fail: a trigger advance replays
  an outcome or records one trigger, a continuation works for
  the active trigger, and either ends its turn with at most
  one outcome, recorded under the trigger it works for.

  Key definitions include:
    * `OutcomeOf`
    * `turn`
    * `TurnEnd`
    * `TriggerTurn`
    * `ContinueTurn`

  Key theorems include:
    * `turn_rules`
    * `exec_advanceTrigger`
    * `exec_advanceContinue`
-/

namespace RainEngine

open Effects

------------------------------------------------------------
-- The Assertions Of A Turn
------------------------------------------------------------

/- The outcome is recorded under the trigger and its key. -/
structure OutcomeOf
    (triggerId : String)
    (key : Option String)
    (outcome : OutcomeRecord) : Prop where
  triggerId : outcome.triggerId = triggerId
  key : outcome.idempotencyKey = key

/- The kernel works for the trigger. -/
structure WorksFor
    (triggerId : String)
    (key : Option String)
    (context : AgentContext) : Prop where
  triggerId : context.metadata.triggerId = triggerId
  key : context.metadata.idempotencyKey = key

/- The turn has been ended by an outcome. -/
def Concluded
    (triggerId : String)
    (key : Option String)
    (base : List SessionRecord)
    (outcome : OutcomeRecord)
    (w : World) :
    Prop :=
  OutcomeOf triggerId key outcome ∧
    marks w.ledger = base ++ [.outcome outcome]

/-
  What is claimed of a turn that starts with the given marks:
  they stay until it is ended by an outcome of its trigger.
-/
def turn
    (triggerId : String)
    (key : Option String)
    (base : List SessionRecord) :
    Assertions where
  holds stage w :=
    match stage with
    | .viewing _ _ => marks w.ledger = base
    | .acting _ context =>
        WorksFor triggerId key context ∧ marks w.ledger = base
    | .finished _ outcome =>
        Concluded triggerId key base outcome w
  request w op :=
    ∀ record, op = .append record → record.isMark = true →
      marks w.ledger = base ∧
        ∃ outcome, record = .outcome outcome ∧
          OutcomeOf triggerId key outcome
  results _ context _ w :=
    WorksFor triggerId key context ∧ marks w.ledger = base
  returned result w :=
    match result with
    | none => marks w.ledger = base
    | some outcome => ∃ record,
        outcome = .fromRecord record ∧
          Concluded triggerId key base record w
  thrown w := marks w.ledger = base

section Rules

variable {triggerId : String}
variable {key : Option String}
variable {base : List SessionRecord}
variable {engine : AgentEngine}
variable {w : World}

theorem IsNote.not_isMark
    {record : SessionRecord}
    (hNote : IsNote record) :
    record.isMark = false := by
  cases record <;> first | rfl | exact hNote.elim

theorem IsTrace.not_isMark
    {record : SessionRecord}
    (hTrace : IsTrace record) :
    record.isMark = false := by
  cases record <;> first | rfl | exact hTrace.elim

/- An unmarked record may be appended at every time. -/
theorem turn_request
    {record : SessionRecord}
    (hOther : record.isMark = false) :
    (turn triggerId key base).request w (.append record) := by
  intro other hSame hMark
  cases hSame
  rw [hOther] at hMark
  cases hMark

theorem turn_silent
    {op : Op}
    (hSilent : op.Silent) :
    (turn triggerId key base).request w op := by
  rintro record hSame
  subst hSame
  exact hSilent.elim

theorem marks_append_other
    {record : SessionRecord}
    (hMarks : marks w.ledger = base)
    (hOther : record.isMark = false) :
    marks (w.append record).ledger = base := by
  rw [World.append_ledger, marks_snoc_of_not_isMark hOther,
    hMarks]

theorem Concluded.append
    {outcome : OutcomeRecord}
    {record : SessionRecord}
    (hConcluded : Concluded triggerId key base outcome w)
    (hOther : record.isMark = false) :
    Concluded triggerId key base outcome
      (w.append record) :=
  ⟨hConcluded.1, marks_append_other hConcluded.2 hOther⟩

theorem WorksFor.push
    {context : AgentContext}
    {record : SessionRecord}
    (hWorks : WorksFor triggerId key context) :
    WorksFor triggerId key (context.push record) :=
  ⟨hWorks.triggerId, hWorks.key⟩

theorem turn_batch
    {context : AgentContext}
    {step : Nat}
    {calls : List PlannedSkillCall}
    {approvalOverride : Bool}
    (hMarks : marks w.ledger = base) :
    Safe reliable (turn triggerId key base).request
      (fun _ w' => marks w'.ledger = base)
      (fun _ w' => marks w'.ledger = base)
      (executePlannedCalls engine context step calls
        approvalOverride) w := by
  refine OnHost.reliable.safe_batch
    (I := fun w' => marks w'.ledger = base) ?_ ?_ ?_ hMarks
  · intro w' op _ hBatch
    cases op with
    | append record => exact turn_request hBatch.not_isMark
    | _ => exact turn_silent trivial
  · intro w' record hKept hTrace
    exact marks_append_other hKept hTrace.not_isMark
  · intro w' uuid hKept _
    exact hKept

theorem turn_rules :
    Rules reliable engine (turn triggerId key base) where
  quiet := by
    intro stage w op _ hQuiet
    apply turn_silent
    cases op <;> trivial
  issue := by
    intro stage w uuid hHolds _
    cases stage <;> exact hHolds
  lag := by
    intro stage w hHolds
    cases stage <;> exact hHolds
  note := by
    intro stage w record _ hNote
    exact turn_request hNote.not_isMark
  noted := by
    intro stage w record hHolds hNote
    have hOther := hNote.not_isMark
    cases stage with
    | viewing _ _ =>
        have hMarks := marks_append_other hHolds hOther
        exact ⟨hMarks, hMarks⟩
    | acting _ _ =>
        have hMarks := marks_append_other hHolds.2 hOther
        exact ⟨⟨hHolds.1, hMarks⟩, hHolds.1.push, hMarks⟩
    | finished _ _ =>
        have hKept := Concluded.append hHolds hOther
        exact ⟨hKept, hKept⟩
  fresh := fun hHolds => hHolds
  stale := fun hHolds _ => hHolds
  summarize := fun _ => turn_silent trivial
  propose := by
    intro flag records w uuid plan hHolds _ _ _ _
    have hIssued : marks (w.issue uuid).ledger = base := hHolds
    exact ⟨turn_request rfl, marks_append_other hIssued rfl⟩
  ask := fun _ => turn_silent trivial
  planStep := by
    intro context w plan action hHolds _
    exact ⟨turn_request rfl, hHolds.1,
      marks_append_other hHolds.2 rfl⟩
  await := by
    intro ready context w pending hHolds _
    exact ⟨turn_request rfl, hHolds.1.push,
      marks_append_other hHolds.2 rfl⟩
  resolve := by
    intro context w pending resolution hHolds _ _
    exact ⟨turn_request rfl, hHolds.1,
      marks_append_other hHolds.2 rfl⟩
  reject := fun hHolds => hHolds
  batch := by
    intro ready context w step calls override hHolds _
    refine Safe.mono (fun _ _ h => h) ?_ (fun _ _ h => h)
      (turn_batch hHolds.2)
    intro execution w' hMarks
    cases execution <;> exact ⟨hHolds.1, hMarks⟩
  result := by
    intro ready context result rest w hHolds
    exact ⟨turn_request rfl, ⟨hHolds.1.triggerId, hHolds.1.key⟩,
      marks_append_other hHolds.2 rfl⟩
  recorded := fun hHolds => hHolds
  lostResult := fun _ hFails =>
    (not_storeFails_reliable _ hFails).elim
  outcome := by
    intro ready context w outcome hHolds hTrigger hKey
    have hOutcome : OutcomeOf triggerId key outcome :=
      ⟨hTrigger.trans hHolds.1.triggerId,
        hKey.trans hHolds.1.key⟩
    refine ⟨?_, hOutcome, ?_⟩
    · rintro record hSame _
      cases hSame
      exact ⟨hHolds.2, outcome, rfl, hOutcome⟩
    · rw [World.append_ledger, marks_snoc_of_isMark rfl,
        hHolds.2]
  lostOutcome := fun _ _ _ hFails =>
    (not_storeFails_reliable _ hFails).elim
  project := fun hHolds _ => ⟨turn_silent trivial, hHolds⟩
  done := fun hHolds => ⟨_, rfl, hHolds⟩
  progress := fun hHolds => hHolds.2
  failed := fun _ hFails =>
    (not_storeFails_reliable _ hFails).elim
  thrown := fun _ hFails =>
    (not_storeFails_reliable _ hFails).elim

end Rules

------------------------------------------------------------
-- Ends Of Turns
------------------------------------------------------------

/-
  A turn that leaves its trigger open returns no outcome; one
  that has been concluded returns the outcome it recorded.
  Either may have been broken off.
-/
inductive TurnEnd
    (triggerId : String)
    (key : Option String)
    (base : List SessionRecord)
    (w : World)
    (r : Option (Except EngineError AdvanceResult)) :
    Prop where
  | opened
      (hMarks : marks w.ledger = base)
      (hResult : ∀ result, r = some (.ok result) →
        result.outcome = none)
  | concluded
      (outcome : OutcomeRecord)
      (hConcluded : Concluded triggerId key base outcome w)
      (hResult : ∀ result, r = some (.ok result) →
        result.outcome = some (.fromRecord outcome))

section Ends

variable {triggerId : String}
variable {key : Option String}
variable {base : List SessionRecord}
variable {engine : AgentEngine}
variable {w w' : World}
variable {steps : List (Step Op Answer World)}
variable {r : Option (Except EngineError AdvanceResult)}

/- The marks during a turn. -/
def TurnMarks
    (triggerId : String)
    (key : Option String)
    (base : List SessionRecord)
    (w : World) :
    Prop :=
  marks w.ledger = base ∨
    ∃ outcome, Concluded triggerId key base outcome w

/- Only its own outcome changes the marks of a turn. -/
theorem TurnMarks.next
    {op : Op}
    {a : Answer op}
    (hMarks : TurnMarks triggerId key base w)
    (hRequest : (turn triggerId key base).request w op) :
    TurnMarks triggerId key base (hostNext w op a) := by
  unfold TurnMarks Concluded at hMarks ⊢
  rcases hostNext_ledger w op a with hSame | hAppend
  · rw [hSame]
    exact hMarks
  · rcases hAppend with ⟨record, hOp, hLedger⟩
    rw [hLedger]
    by_cases hMark : record.isMark = true
    · rcases hRequest record hOp hMark with
        ⟨hBase, outcome, hRecord, hOutcome⟩
      refine .inr ⟨outcome, hOutcome, ?_⟩
      rw [marks_snoc_of_isMark hMark, hBase, hRecord]
    · rw [Bool.not_eq_true] at hMark
      rw [marks_snoc_of_not_isMark hMark]
      exact hMarks

/- What a turn returns tells how it has ended. -/
theorem turnEnd_of_returned
    {result : AdvanceResult}
    (hReturned :
      (turn triggerId key base).returned result.outcome w) :
    TurnEnd triggerId key base w (some (.ok result)) := by
  cases hOutcome : result.outcome with
  | none =>
      rw [hOutcome] at hReturned
      refine .opened hReturned ?_
      intro other hSame
      cases hSame
      exact hOutcome
  | some outcome =>
      rw [hOutcome] at hReturned
      rcases hReturned with ⟨record, hRecord, hConcluded⟩
      refine .concluded record hConcluded ?_
      intro other hSame
      cases hSame
      rw [hOutcome, hRecord]

theorem turnEnd_of_stopped
    (hMarks : TurnMarks triggerId key base w) :
    TurnEnd triggerId key base w none := by
  rcases hMarks with hBase | ⟨outcome, hConcluded⟩
  · exact .opened hBase (by simp)
  · exact .concluded outcome hConcluded (by simp)

theorem turnEnd_of_safe
    {p : EngineM AdvanceResult}
    (hSafe : Ends reliable (turn triggerId key base) p w)
    (hExec : Exec reliable w p steps w' r)
    (hMarks : marks w.ledger = base) :
    TurnEnd triggerId key base w' r := by
  cases r with
  | none =>
      apply turnEnd_of_stopped
      refine (Safe.invariant hSafe hExec ?_ (.inl hMarks)).2
      intro w op a hHolds hRequest _
      exact TurnMarks.next hHolds hRequest
  | some res =>
      have hResult := Safe.result hSafe hExec
      cases res with
      | error e => exact .opened (hResult.2 e rfl) (by simp)
      | ok result =>
          exact turnEnd_of_returned (hResult.1 result rfl)

------------------------------------------------------------
-- Trigger Advances
------------------------------------------------------------

/-
  A trigger advance stops before it has recorded anything,
  replays the outcome of its key, or records its trigger and
  takes a turn for it.
-/
inductive TriggerTurn
    (request : ProcessRequest)
    (w : World)
    (steps : List (Step Op Answer World))
    (w' : World)
    (r : Option (Except EngineError AdvanceResult)) :
    Prop where
  | stopped
      (hLedger : w'.ledger = w.ledger)
      (hSteps : ∀ s ∈ steps, s.op.Quiet)
      (hResult : r = none)
  | replayed
      {prior : EngineOutcome}
      (hPrior : priorOutcome w.ledger request = some prior)
      (hLedger : w'.ledger = w.ledger)
      (hSteps : ∀ s ∈ steps, s.op.Quiet)
      (hResult :
        r = some (.ok (outcomeOnly
          { prior with idempotentReplay := true } [])))
  | recorded
      {triggerId : String}
      (hFresh : triggerId ∉ w.issued)
      (hPrior : priorOutcome w.ledger request = none)
      (hEnd :
        TurnEnd triggerId request.idempotencyKey
          (marks w.ledger ++
            [.trigger (request.record triggerId)]) w' r)

theorem turn_processTrigger
    {request : ProcessRequest}
    {trigger : TriggerRecord}
    (hTrigger : trigger.triggerId = triggerId)
    (hKey : request.idempotencyKey = key)
    (hMarks : marks w.ledger = base) :
    Ends reliable (turn triggerId key base)
      (processTrigger engine request trigger) w := by
  apply (turn_rules.steps .reliable).safe_processTrigger
    .reliable
  · intro cached _
    exact hMarks
  · exact hMarks
  · intro error hFails
    exact (not_storeFails_reliable _ hFails).elim
  · intro snapshot w' hHolds
    exact ⟨⟨hTrigger, hKey⟩, hHolds⟩

/- What is left of a trigger advance after its identifier. -/
theorem exec_recordTrigger
    {request : ProcessRequest}
    (hExec :
      Exec reliable (w.issue triggerId)
        (append (.trigger (request.record triggerId)) >>= fun
          | .error error =>
              pure (outcomeOnly
                (storageFailureOutcome triggerId 0 error) [])
          | .ok _ =>
              processTrigger engine request
                (request.record triggerId)) steps w' r)
    (hFresh : triggerId ∉ w.issued)
    (hPrior : priorOutcome w.ledger request = none) :
    TriggerTurn request w steps w' r := by
  rcases Exec.of_request hExec with
    ⟨hNil, hSame, hStopped⟩ | ⟨a, rest, hAllowed, _, hRest⟩
  · subst hNil
    refine .stopped ?_ (by simp) hStopped
    rw [hSame]
    rfl
  · have hOk : a = .ok () := hAllowed.2
    subst hOk
    refine .recorded hFresh hPrior ?_
    refine turnEnd_of_safe (turn_processTrigger rfl rfl ?_)
      hRest ?_
    all_goals exact marks_snoc_of_isMark rfl

theorem TriggerTurn.prepend
    {request : ProcessRequest}
    {asked : List (Step Op Answer World)}
    (hAsked : ∀ s ∈ asked, s.op.Quiet)
    (hTurn : TriggerTurn request w steps w' r) :
    TriggerTurn request w (asked ++ steps) w' r := by
  have hAll : (∀ s ∈ steps, s.op.Quiet) →
      ∀ s ∈ asked ++ steps, s.op.Quiet := by
    intro hSteps s hMem
    rcases List.mem_append.mp hMem with hHead | hTail
    · exact hAsked s hHead
    · exact hSteps s hTail
  cases hTurn with
  | stopped hLedger hSteps hResult =>
      exact .stopped hLedger (hAll hSteps) hResult
  | replayed hPrior hLedger hSteps hResult =>
      exact .replayed hPrior hLedger (hAll hSteps) hResult
  | recorded hFresh hPrior hEnd =>
      exact .recorded hFresh hPrior hEnd

/- The store tells the outcome of a request's key. -/
theorem exec_findPriorOutcome
    {request : ProcessRequest}
    {f : Option EngineOutcome → EngineM AdvanceResult}
    (hExec :
      Exec reliable w
        (findPriorOutcome request.idempotencyKey >>= f) steps
        w' r) :
    (steps = [] ∧ w' = w ∧ r = none) ∨
      ∃ asked rest, steps = asked ++ rest ∧
        (∀ s ∈ asked, s.op.Quiet) ∧
        Exec reliable w (f (priorOutcome w.ledger request))
          rest w' r := by
  unfold priorOutcome
  cases hKey : request.idempotencyKey with
  | none =>
      rw [hKey] at hExec
      exact .inr ⟨[], steps, rfl, by simp, hExec⟩
  | some key =>
      rw [hKey] at hExec
      rcases Exec.of_request hExec with hStopped |
        ⟨found, rest, hFound, hSteps, hRest⟩
      · exact .inl hStopped
      · rcases hFound with ⟨hReads, prior, hOk⟩
        subst hOk
        have hPrior :
            prior = findOutcomeByIdempotencyKey w.ledger key :=
          hReads
        subst hPrior
        refine .inr ⟨[_], rest, hSteps, ?_, hRest⟩
        intro s hMem
        rw [List.mem_singleton] at hMem
        rw [hMem]
        trivial

/- Once the prior outcome is known. -/
theorem exec_answerTrigger
    {request : ProcessRequest}
    (hExec :
      Exec reliable (w.issue triggerId)
        (match priorOutcome w.ledger request with
        | some prior =>
            pure (outcomeOnly
              { prior with idempotentReplay := true } [])
        | none =>
            append (.trigger (request.record triggerId)) >>=
              fun
              | .error error =>
                  pure (outcomeOnly
                    (storageFailureOutcome triggerId 0 error)
                    [])
              | .ok _ =>
                  processTrigger engine request
                    (request.record triggerId)) steps w' r)
    (hFresh : triggerId ∉ w.issued) :
    TriggerTurn request w steps w' r := by
  cases hPrior : priorOutcome w.ledger request with
  | none =>
      rw [hPrior] at hExec
      exact exec_recordTrigger hExec hFresh hPrior
  | some prior =>
      rw [hPrior] at hExec
      rcases Exec.of_pure hExec with
        ⟨hNil, hSame, hStopped | hReturned⟩
      · subst hNil
        exact .stopped (by rw [hSame]; rfl) (by simp)
          hStopped
      · subst hNil
        exact .replayed hPrior (by rw [hSame]; rfl) (by simp)
          hReturned

theorem exec_advanceTrigger
    {request : ProcessRequest}
    (hExec :
      Exec reliable w (advanceTrigger engine request) steps
        w' r) :
    TriggerTurn request w steps w' r := by
  rcases Exec.of_request hExec with
    ⟨hNil, hSame, hStopped⟩ |
      ⟨triggerId, rest, hFresh, hSteps, hRest⟩
  · subst hNil
    exact .stopped (by rw [hSame]) (by simp) hStopped
  · subst hSteps
    have hIssue : ∀ s ∈ [(⟨w, .newUuid, triggerId⟩ :
        Step Op Answer World)], s.op.Quiet := by
      intro s hMem
      rw [List.mem_singleton] at hMem
      rw [hMem]
      trivial
    refine .prepend hIssue ?_
    rcases exec_findPriorOutcome hRest with
      ⟨hNil, hSame, hStopped⟩ |
        ⟨asked, rest', hSteps, hAsked, hLater⟩
    · subst hNil
      exact .stopped (by rw [hSame]; rfl) (by simp) hStopped
    · subst hSteps
      exact .prepend hAsked
        (exec_answerTrigger hLater hFresh.1)

------------------------------------------------------------
-- Continuations
------------------------------------------------------------

/-
  A continuation stops before it has read the ledger, finds
  nothing to continue, or takes a turn for the active trigger.
-/
inductive ContinueTurn
    (w : World)
    (w' : World)
    (r : Option (Except EngineError AdvanceResult)) :
    Prop where
  | stopped
      (hLedger : w'.ledger = w.ledger)
      (hResult : r = none)
  | nothing
      {triggerId : String}
      (hActive : activeTrigger w.ledger = none)
      (hFresh : triggerId ∉ w.issued)
      (hLedger : w'.ledger = w.ledger)
      (hResult :
        r = some (.ok (outcomeOnly
          (nothingToContinue triggerId) [])))
  | resumed
      {trigger : TriggerRecord}
      (hActive : activeTrigger w.ledger = some trigger)
      (hEnd :
        TurnEnd trigger.triggerId trigger.idempotencyKey
          (marks w.ledger) w' r)

theorem exec_advanceContinue
    {request : ContinueRequest}
    (hExec :
      Exec reliable w (advanceContinue engine request) steps
        w' r) :
    ContinueTurn w w' r := by
  rcases Exec.of_request hExec with
    ⟨_, hSame, hStopped⟩ |
      ⟨answer, rest, hAnswer, _, hRest⟩
  · exact .stopped (by rw [hSame]) hStopped
  · rcases hAnswer with ⟨hReads, snapshot, hOk⟩
    subst hOk
    have hSnapshot : snapshot = w.snapshot := hReads
    subst hSnapshot
    have hNext :
        reliable.next w .loadSession (.ok w.snapshot) = w :=
      rfl
    rw [hNext] at hRest
    simp only [Program.bind, World.snapshot_records] at hRest
    cases hActive : activeTrigger w.ledger with
    | none =>
        rw [hActive] at hRest
        rcases Exec.of_request hRest with
          ⟨_, hSame, hStopped⟩ |
            ⟨triggerId, _, hFresh, _, hLater⟩
        · exact .stopped (by rw [hSame]) hStopped
        · rcases Exec.of_pure hLater with
            ⟨_, hSame, hStopped | hReturned⟩
          · exact .stopped (by rw [hSame]; rfl) hStopped
          · exact .nothing hActive hFresh.1
              (by rw [hSame]; rfl) hReturned
    | some trigger =>
        rw [hActive] at hRest
        refine .resumed hActive
          (turnEnd_of_safe ?_ hRest rfl)
        apply (turn_rules.steps .reliable).safe_continueTrigger
          .reliable
        exact ⟨⟨rfl, rfl⟩, rfl⟩

end Ends

end RainEngine
