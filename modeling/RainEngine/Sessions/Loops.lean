import RainEngine.Sessions.Turns

/-
  This file defines the loops that run a request until it has
  an outcome, several of them on one session and interleaved
  advance by advance. A continuation works for the oldest open
  trigger of the session, not for the trigger of its loop, so
  loops keep to their own triggers only as long as at most one
  trigger is open.

  Key definitions include:
    * `LoopOf`
    * `Interleaved`
    * `StartsAlone`
    * `KeepsToOwnTriggers`

  Key theorems include:
    * `guarded_step`
    * `loops_keep_to_own_triggers`
-/

namespace RainEngine

open Effects

------------------------------------------------------------
-- Loops
------------------------------------------------------------

/- The request a loop goes on with. -/
def ProcessRequest.continuation
    (request : ProcessRequest)
    (cancelled : Bool) :
    ContinueRequest where
  sessionId := request.sessionId
  grantedScopes := request.grantedScopes
  policy := request.policy
  provider := request.provider
  cancelled := cancelled

/- The advance has returned without an outcome. -/
def Advance.isOpen (t : Advance) : Bool :=
  match t.result with
  | some (.ok result) => result.outcome.isNone
  | _ => false

/-
  The advances a loop has made so far: its trigger, and
  continuations as long as there is no outcome. A loop may be
  abandoned after each of them.
-/
inductive LoopOf (request : ProcessRequest) :
    List Advance → Prop where
  | idle : LoopOf request []
  | start {t : Advance}
      (hRequest : t.request = .trigger request) :
      LoopOf request [t]
  | next {done : List Advance} {last t : Advance}
      {cancelled : Bool}
      (hLoop : LoopOf request (done ++ [last]))
      (hOpen : last.isOpen = true)
      (hRequest :
        t.request =
          .continueWith (request.continuation cancelled)) :
      LoopOf request (done ++ [last, t])

/- The advances of one loop among those of a session. -/
def advancesOf
    (loop : Nat)
    (events : List (Nat × Advance)) :
    List Advance :=
  (events.filter (·.1 = loop)).map (·.2)

/- Loops whose advances make up a run of the session. -/
structure Interleaved
    (requests : Nat → ProcessRequest)
    (events : List (Nat × Advance))
    (w w' : World) : Prop where
  run : Run reliable w (events.map (·.2)) w'
  loops : ∀ loop,
    LoopOf (requests loop) (advancesOf loop events)

------------------------------------------------------------
-- Records Of A Loop
------------------------------------------------------------

/- The trigger a loop has recorded with its first advance. -/
def ownTrigger
    (loop : Nat)
    (events : List (Nat × Advance)) :
    Option TriggerRecord :=
  (advancesOf loop events).head?.bind fun t =>
    t.added.findSome? SessionRecord.asTrigger

/-
  Every loop keeps to the trigger it has recorded: what it
  returns and what it records are outcomes of this trigger,
  and no trigger loses its outcome to another loop.
-/
structure KeepsToOwnTriggers
    (requests : Nat → ProcessRequest)
    (events : List (Nat × Advance))
    (w : World) : Prop where
  returned :
    ∀ loop trigger, ownTrigger loop events = some trigger →
      ∀ t ∈ advancesOf loop events, ∀ outcome,
        t.returned = some outcome →
        outcome.triggerId = trigger.triggerId ∧
          ∃ record, .outcome record ∈ w.ledger ∧
            outcome = .fromRecord record ∧
            record.idempotencyKey =
              (requests loop).idempotencyKey
  recorded :
    ∀ loop, ∀ t ∈ advancesOf loop events,
      ∀ record, .outcome record ∈ t.added →
        ∃ trigger, ownTrigger loop events = some trigger ∧
          record.triggerId = trigger.triggerId ∧
          record.idempotencyKey =
            (requests loop).idempotencyKey
  kept :
    ∀ loop trigger, ownTrigger loop events = some trigger →
      .trigger trigger ∈ sinceLastOutcome w.ledger ∨
        ∃ record, .outcome record ∈ w.ledger ∧
          record.triggerId = trigger.triggerId ∧
          record.idempotencyKey =
            (requests loop).idempotencyKey

/-
  A trigger is only recorded when no other trigger is open;
  requests that replay an outcome record none.
-/
def StartsAlone (t : Advance) : Prop :=
  ∀ request, t.request = .trigger request →
    activeTrigger t.before.ledger = none ∨
      priorOutcome t.before.ledger request ≠ none

------------------------------------------------------------
-- Added Marks
------------------------------------------------------------

section Added

variable {t : Advance}

theorem Advance.marks_added
    {base : List SessionRecord}
    (hRuns : t.Runs reliable)
    (hMarks :
      marks t.after.ledger = marks t.before.ledger ++ base) :
    marks t.added = base := by
  rw [Advance.ledger_eq .reliable hRuns, marks_append] at hMarks
  exact List.append_cancel_left hMarks

theorem Advance.added_trigger
    {base : List SessionRecord}
    (hMarks : marks t.added = base) :
    t.added.findSome? SessionRecord.asTrigger =
      base.findSome? SessionRecord.asTrigger := by
  rw [← hMarks]
  refine (Logs.findSome?_view ?_).symm
  intro record hOther
  cases record <;> first | rfl | cases hOther

theorem Advance.mem_added_outcome
    {base : List SessionRecord}
    {outcome : OutcomeRecord}
    (hMarks : marks t.added = base) :
    .outcome outcome ∈ t.added ↔ .outcome outcome ∈ base := by
  rw [← hMarks]
  exact mem_marks_outcome.symm

theorem Advance.returned_none
    (hResult : ∀ result, t.result = some (.ok result) →
      result.outcome = none) :
    t.returned = none := by
  unfold Advance.returned
  split
  · rename_i result hReturned
    exact hResult result hReturned
  · rfl

theorem Advance.returned_some
    {expected outcome : EngineOutcome}
    (hResult : ∀ result, t.result = some (.ok result) →
      result.outcome = some expected)
    (hReturned : t.returned = some outcome) :
    outcome = expected := by
  unfold Advance.returned at hReturned
  split at hReturned
  · rename_i result hSome
    rw [hResult result hSome] at hReturned
    cases hReturned
    rfl
  · cases hReturned

end Added

/- The marks since the last outcome are open triggers. -/
theorem openMarks_eq_nil
    {records : List SessionRecord}
    (hActive : activeTrigger records = none) :
    sinceLastOutcome (marks records) = [] := by
  rw [List.eq_nil_iff_forall_not_mem]
  intro record hMem
  have hNone : record.asTrigger = none := by
    rw [← activeTrigger_marks] at hActive
    exact List.findSome?_eq_none_iff.mp hActive record hMem
  have hMark : record.isMark = true := by
    rw [sinceLastOutcome_marks] at hMem
    exact (List.mem_filter.mp hMem).2
  unfold sinceLastOutcome at hMem
  have hOpen := List.mem_rtakeWhile_imp hMem
  cases record <;> simp_all [SessionRecord.asTrigger,
    SessionRecord.isOutcome, SessionRecord.isMark]

theorem mem_openMarks
    {records : List SessionRecord}
    {trigger : TriggerRecord} :
    .trigger trigger ∈ sinceLastOutcome (marks records) ↔
      .trigger trigger ∈ sinceLastOutcome records := by
  rw [sinceLastOutcome_marks]
  exact mem_marks_trigger

------------------------------------------------------------
-- One More Advance
------------------------------------------------------------

section Events

variable {requests : Nat → ProcessRequest}
variable {events : List (Nat × Advance)}
variable {loop other : Nat}
variable {t : Advance}
variable {w w' : World}

theorem advancesOf_snoc_same :
    advancesOf loop (events ++ [(loop, t)]) =
      advancesOf loop events ++ [t] := by
  simp [advancesOf]

theorem advancesOf_snoc_other
    (hOther : other ≠ loop) :
    advancesOf other (events ++ [(loop, t)]) =
      advancesOf other events := by
  simp [advancesOf, hOther.symm]

theorem mem_advancesOf_snoc
    {t' : Advance} :
    t' ∈ advancesOf other (events ++ [(loop, t)]) ↔
      t' ∈ advancesOf other events ∨
        (other = loop ∧ t' = t) := by
  by_cases hSame : other = loop
  · subst hSame
    rw [advancesOf_snoc_same]
    simp
  · rw [advancesOf_snoc_other hSame]
    simp [hSame]

/- The first advance of a loop stays its first. -/
theorem ownTrigger_snoc
    (hStarted : advancesOf other events ≠ []) :
    ownTrigger other (events ++ [(loop, t)]) =
      ownTrigger other events := by
  unfold ownTrigger
  by_cases hSame : other = loop
  · subst hSame
    rw [advancesOf_snoc_same, List.head?_append_of_ne_nil _
      hStarted]
  · rw [advancesOf_snoc_other hSame]

theorem ownTrigger_snoc_other
    (hOther : other ≠ loop) :
    ownTrigger other (events ++ [(loop, t)]) =
      ownTrigger other events := by
  unfold ownTrigger
  rw [advancesOf_snoc_other hOther]

theorem ownTrigger_snoc_first
    (hFirst : advancesOf loop events = []) :
    ownTrigger loop (events ++ [(loop, t)]) =
      t.added.findSome? SessionRecord.asTrigger := by
  unfold ownTrigger
  rw [advancesOf_snoc_same, hFirst]
  rfl

/- A loop goes on only after an advance without outcome. -/
theorem LoopOf.snoc_cases
    {request : ProcessRequest}
    {done : List Advance}
    (hLoop : LoopOf request (done ++ [t])) :
    (done = [] ∧ t.request = .trigger request) ∨
      ∃ last cancelled, done.getLast? = some last ∧
        last.isOpen = true ∧
        t.request =
          .continueWith (request.continuation cancelled) := by
  generalize hList : done ++ [t] = list at hLoop
  cases hLoop with
  | idle => simp at hList
  | @start first hRequest =>
      rw [List.append_eq_singleton_iff] at hList
      rcases hList with ⟨hNil, hSame⟩ | ⟨_, hSame⟩
      · cases hSame
        exact .inl ⟨hNil, hRequest⟩
      · cases hSame
  | @next before last newest cancelled _ hOpen hRequest =>
      have hSplit :
          done ++ [t] = (before ++ [last]) ++ [newest] := by
        rw [hList, List.append_assoc]
        rfl
      rcases List.append_inj' hSplit rfl with ⟨hDone, hSame⟩
      cases hSame
      refine .inr ⟨last, cancelled, ?_, hOpen, hRequest⟩
      rw [hDone]
      simp

/- What earlier advances keep to outlasts a further one. -/
theorem KeepsToOwnTriggers.snoc
    (hKeeps : KeepsToOwnTriggers requests events w)
    (hPrefix : w.ledger <+: w'.ledger)
    (hReturned : ∀ trigger,
      ownTrigger loop (events ++ [(loop, t)]) =
        some trigger →
      ∀ outcome, t.returned = some outcome →
        outcome.triggerId = trigger.triggerId ∧
          ∃ record, .outcome record ∈ w'.ledger ∧
            outcome = .fromRecord record ∧
            record.idempotencyKey =
              (requests loop).idempotencyKey)
    (hRecorded : ∀ record, .outcome record ∈ t.added →
      ∃ trigger,
        ownTrigger loop (events ++ [(loop, t)]) =
          some trigger ∧
        record.triggerId = trigger.triggerId ∧
        record.idempotencyKey =
          (requests loop).idempotencyKey)
    (hKept : ∀ other trigger,
      ownTrigger other (events ++ [(loop, t)]) =
        some trigger →
      .trigger trigger ∈ sinceLastOutcome w'.ledger ∨
        ∃ record, .outcome record ∈ w'.ledger ∧
          record.triggerId = trigger.triggerId ∧
          record.idempotencyKey =
            (requests other).idempotencyKey) :
    KeepsToOwnTriggers requests (events ++ [(loop, t)])
      w' := by
  have hStarted : ∀ {other t'},
      t' ∈ advancesOf other events →
        ownTrigger other (events ++ [(loop, t)]) =
          ownTrigger other events := by
    intro other t' hMem
    exact ownTrigger_snoc (List.ne_nil_of_mem hMem)
  refine ⟨?_, ?_, hKept⟩
  · intro other trigger hOwn t' hMem outcome hOutcome
    rcases mem_advancesOf_snoc.mp hMem with
      hOld | ⟨hSame, hNew⟩
    · rw [hStarted hOld] at hOwn
      rcases hKeeps.returned other trigger hOwn t' hOld
        outcome hOutcome with
        ⟨hId, record, hRecord, hRest⟩
      exact ⟨hId, record, hPrefix.subset hRecord, hRest⟩
    · subst hSame
      subst hNew
      exact hReturned trigger hOwn outcome hOutcome
  · intro other t' hMem record hRecord
    rcases mem_advancesOf_snoc.mp hMem with
      hOld | ⟨hSame, hNew⟩
    · rw [hStarted hOld]
      exact hKeeps.recorded other t' hOld record hRecord
    · subst hSame
      subst hNew
      exact hRecorded record hRecord

------------------------------------------------------------
-- Loops With One Open Trigger
------------------------------------------------------------

/- The loop goes on with its next advance. -/
def IsRunning
    (loop : Nat)
    (events : List (Nat × Advance)) :
    Prop :=
  ∃ last, (advancesOf loop events).getLast? = some last ∧
    last.isOpen = true

/-
  What holds when every trigger starts alone: at most one
  trigger is open, and at most one loop goes on, with it.
-/
structure Guarded
    (requests : Nat → ProcessRequest)
    (events : List (Nat × Advance))
    (w : World) : Prop where
  keeps : KeepsToOwnTriggers requests events w
  single : (sinceLastOutcome (marks w.ledger)).length ≤ 1
  own : ∀ loop trigger, ownTrigger loop events = some trigger →
    trigger.idempotencyKey = (requests loop).idempotencyKey
  running : ∀ loop, IsRunning loop events →
    ∃ trigger, ownTrigger loop events = some trigger ∧
      sinceLastOutcome (marks w.ledger) = [.trigger trigger]
  alone : ∀ loop other, IsRunning loop events →
    IsRunning other events → loop = other

theorem isRunning_snoc_same :
    IsRunning loop (events ++ [(loop, t)]) ↔
      t.isOpen = true := by
  unfold IsRunning
  rw [advancesOf_snoc_same]
  simp

theorem isRunning_snoc_other
    (hOther : other ≠ loop) :
    IsRunning other (events ++ [(loop, t)]) ↔
      IsRunning other events := by
  unfold IsRunning
  rw [advancesOf_snoc_other hOther]

/- No loop goes on while no trigger is open. -/
theorem Guarded.not_running
    (hGuarded : Guarded requests events w)
    (hNone : sinceLastOutcome (marks w.ledger) = []) :
    ¬IsRunning loop events := by
  intro hRunning
  rcases hGuarded.running loop hRunning with
    ⟨trigger, _, hOpen⟩
  rw [hNone] at hOpen
  cases hOpen

/- An advance that leaves the marks as they were. -/
theorem Guarded.snoc_idle
    (hGuarded : Guarded requests events w)
    (hLedger : w'.ledger = w.ledger ++ t.added)
    (hMarks : marks t.added = [])
    (hOwn : ∀ trigger,
      ownTrigger loop (events ++ [(loop, t)]) =
        some trigger →
      ownTrigger loop events = some trigger ∧
        ∀ result, t.result = some (.ok result) →
          result.outcome = none)
    (hRunning : t.isOpen = true → IsRunning loop events) :
    Guarded requests (events ++ [(loop, t)]) w' := by
  have hSame : marks w'.ledger = marks w.ledger := by
    rw [hLedger, marks_append, hMarks, List.append_nil]
  have hOlder : ∀ other trigger,
      ownTrigger other (events ++ [(loop, t)]) =
        some trigger →
      ownTrigger other events = some trigger := by
    intro other trigger hOther
    by_cases hLoop : other = loop
    · subst hLoop
      exact (hOwn trigger hOther).1
    · rwa [ownTrigger_snoc_other hLoop] at hOther
  have hRuns : ∀ other,
      IsRunning other (events ++ [(loop, t)]) →
        IsRunning other events := by
    intro other hOther
    by_cases hLoop : other = loop
    · subst hLoop
      exact hRunning (isRunning_snoc_same.mp hOther)
    · exact (isRunning_snoc_other hLoop).mp hOther
  have hStarted : ∀ other, IsRunning other events →
      ownTrigger other (events ++ [(loop, t)]) =
        ownTrigger other events := by
    rintro other ⟨last, hLast, _⟩
    apply ownTrigger_snoc
    intro hNil
    rw [hNil] at hLast
    cases hLast
  constructor
  · refine hGuarded.keeps.snoc ?_ ?_ ?_ ?_
    · rw [hLedger]
      exact List.prefix_append _ _
    · intro trigger hTrigger outcome hOutcome
      rw [Advance.returned_none (hOwn trigger hTrigger).2]
        at hOutcome
      cases hOutcome
    · intro record hRecord
      rw [Advance.mem_added_outcome hMarks] at hRecord
      cases hRecord
    · intro other trigger hOther
      rcases hGuarded.keeps.kept other trigger
          (hOlder other trigger hOther) with
        hOpen | ⟨record, hRecord, hRest⟩
      · refine .inl ?_
        rw [← mem_openMarks] at hOpen ⊢
        rw [hSame]
        exact hOpen
      · refine .inr ⟨record, ?_, hRest⟩
        rw [hLedger]
        exact List.mem_append_left _ hRecord
  · rw [hSame]
    exact hGuarded.single
  · intro other trigger hOther
    exact hGuarded.own other trigger
      (hOlder other trigger hOther)
  · intro other hOther
    rw [hStarted other (hRuns other hOther), hSame]
    exact hGuarded.running other (hRuns other hOther)
  · intro one other hOne hOther
    exact hGuarded.alone one other (hRuns one hOne)
      (hRuns other hOther)

/- An advance that records a trigger and leaves it open. -/
theorem Guarded.snoc_opened
    {trigger : TriggerRecord}
    (hGuarded : Guarded requests events w)
    (hLedger : w'.ledger = w.ledger ++ t.added)
    (hMarks : marks t.added = [.trigger trigger])
    (hFirst : advancesOf loop events = [])
    (hKey :
      trigger.idempotencyKey = (requests loop).idempotencyKey)
    (hResult : ∀ result, t.result = some (.ok result) →
      result.outcome = none)
    (hNone : sinceLastOutcome (marks w.ledger) = []) :
    Guarded requests (events ++ [(loop, t)]) w' := by
  have hOwn :
      ownTrigger loop (events ++ [(loop, t)]) =
        some trigger := by
    rw [ownTrigger_snoc_first hFirst,
      Advance.added_trigger hMarks]
    rfl
  have hOpen :
      sinceLastOutcome (marks w'.ledger) =
        [.trigger trigger] := by
    rw [hLedger, marks_append, hMarks, sinceLastOutcome_append,
      hNone]
    rfl
  have hOnly : ∀ other,
      IsRunning other (events ++ [(loop, t)]) →
        other = loop := by
    intro other hOther
    by_contra hLoop
    exact hGuarded.not_running hNone
      ((isRunning_snoc_other hLoop).mp hOther)
  constructor
  · refine hGuarded.keeps.snoc ?_ ?_ ?_ ?_
    · rw [hLedger]
      exact List.prefix_append _ _
    · intro _ _ outcome hOutcome
      rw [Advance.returned_none hResult] at hOutcome
      cases hOutcome
    · intro record hRecord
      rw [Advance.mem_added_outcome hMarks] at hRecord
      simp at hRecord
    · intro other found hOther
      by_cases hLoop : other = loop
      · subst hLoop
        rw [hOwn] at hOther
        cases hOther
        refine .inl ?_
        rw [← mem_openMarks, hOpen]
        exact List.mem_singleton_self _
      · rw [ownTrigger_snoc_other hLoop] at hOther
        rcases hGuarded.keeps.kept other found hOther with
          hOld | ⟨record, hRecord, hRest⟩
        · rw [← mem_openMarks, hNone] at hOld
          cases hOld
        · refine .inr ⟨record, ?_, hRest⟩
          rw [hLedger]
          exact List.mem_append_left _ hRecord
  · rw [hOpen]
    exact Nat.le_refl 1
  · intro other found hOther
    by_cases hLoop : other = loop
    · subst hLoop
      rw [hOwn] at hOther
      cases hOther
      exact hKey
    · rw [ownTrigger_snoc_other hLoop] at hOther
      exact hGuarded.own other found hOther
  · intro other hOther
    rw [hOnly other hOther]
    exact ⟨trigger, hOwn, hOpen⟩
  · intro one other hOne hOther
    rw [hOnly one hOne, hOnly other hOther]

/- An advance that concludes the trigger of its loop. -/
theorem Guarded.snoc_concluded
    {trigger : TriggerRecord}
    {outcome : OutcomeRecord}
    {base : List SessionRecord}
    (hGuarded : Guarded requests events w)
    (hLedger : w'.ledger = w.ledger ++ t.added)
    (hMarks : marks t.added = base ++ [.outcome outcome])
    (hBase : ∀ record, .outcome record ∉ base)
    (hOwn :
      ownTrigger loop (events ++ [(loop, t)]) = some trigger)
    (hKey :
      trigger.idempotencyKey = (requests loop).idempotencyKey)
    (hOutcome :
      OutcomeOf trigger.triggerId trigger.idempotencyKey
        outcome)
    (hResult : ∀ result, t.result = some (.ok result) →
      result.outcome = some (.fromRecord outcome))
    (hOnly : ∀ other,
      .trigger other ∈ sinceLastOutcome (marks w.ledger) →
        other = trigger)
    (hAlone : ∀ other, IsRunning other events →
      other = loop) :
    Guarded requests (events ++ [(loop, t)]) w' := by
  have hRecord : .outcome outcome ∈ w'.ledger := by
    have hAdded : .outcome outcome ∈ t.added := by
      rw [Advance.mem_added_outcome hMarks]
      exact List.mem_append_right _
        (List.mem_singleton_self _)
    rw [hLedger]
    exact List.mem_append_right _ hAdded
  have hOutcomeKey :
      outcome.idempotencyKey =
        (requests loop).idempotencyKey :=
    hOutcome.key.trans hKey
  have hClosed :
      sinceLastOutcome (marks w'.ledger) = [] := by
    rw [hLedger, marks_append, hMarks, ← List.append_assoc,
      sinceLastOutcome_append]
    rfl
  have hNone : ∀ other,
      ¬IsRunning other (events ++ [(loop, t)]) := by
    intro other hOther
    by_cases hLoop : other = loop
    · subst hLoop
      have hOpen := isRunning_snoc_same.mp hOther
      unfold Advance.isOpen at hOpen
      split at hOpen
      · rename_i result hReturned
        rw [hResult result hReturned] at hOpen
        cases hOpen
      · cases hOpen
    · exact hLoop (hAlone other
        ((isRunning_snoc_other hLoop).mp hOther))
  constructor
  · refine hGuarded.keeps.snoc ?_ ?_ ?_ ?_
    · rw [hLedger]
      exact List.prefix_append _ _
    · intro found hFound returned hReturned
      rw [hOwn] at hFound
      cases hFound
      have hSame := Advance.returned_some hResult hReturned
      subst hSame
      exact ⟨hOutcome.triggerId, outcome, hRecord, rfl,
        hOutcomeKey⟩
    · intro record hMem
      rw [Advance.mem_added_outcome hMarks] at hMem
      rcases List.mem_append.mp hMem with hOld | hNew
      · exact absurd hOld (hBase record)
      · rw [List.mem_singleton] at hNew
        cases hNew
        exact ⟨trigger, hOwn, hOutcome.triggerId, hOutcomeKey⟩
    · intro other found hOther
      refine .inr ?_
      by_cases hLoop : other = loop
      · subst hLoop
        rw [hOwn] at hOther
        cases hOther
        exact ⟨outcome, hRecord, hOutcome.triggerId,
          hOutcomeKey⟩
      · rw [ownTrigger_snoc_other hLoop] at hOther
        rcases hGuarded.keeps.kept other found hOther with
          hOpen | ⟨record, hMem, hRest⟩
        · rw [← mem_openMarks] at hOpen
          have hSame := hOnly found hOpen
          subst hSame
          exact ⟨outcome, hRecord, hOutcome.triggerId,
            hOutcome.key.trans
              (hGuarded.own other found hOther)⟩
        · refine ⟨record, ?_, hRest⟩
          rw [hLedger]
          exact List.mem_append_left _ hMem
  · rw [hClosed]
    exact Nat.zero_le 1
  · intro other found hOther
    by_cases hLoop : other = loop
    · subst hLoop
      rw [hOwn] at hOther
      cases hOther
      exact hKey
    · rw [ownTrigger_snoc_other hLoop] at hOther
      exact hGuarded.own other found hOther
  · intro other hOther
    exact absurd hOther (hNone other)
  · intro one other hOne _
    exact absurd hOne (hNone one)

------------------------------------------------------------
-- Guarded Steps
------------------------------------------------------------

/- The first advance of a loop, when no trigger is open. -/
theorem Guarded.snoc_trigger
    (hGuarded : Guarded requests events t.before)
    (hRuns : t.Runs reliable)
    (hAlone : StartsAlone t)
    (hFirst : advancesOf loop events = [])
    (hRequest : t.request = .trigger (requests loop)) :
    Guarded requests (events ++ [(loop, t)]) t.after := by
  have hLedger := Advance.ledger_eq .reliable hRuns
  have hTurn :
      TriggerTurn (requests loop) t.before t.steps t.after
        t.result := by
    unfold Advance.Runs at hRuns
    rw [hRequest] at hRuns
    exact exec_advanceTrigger hRuns
  have hIdle : t.after.ledger = t.before.ledger →
      t.isOpen = false →
        Guarded requests (events ++ [(loop, t)]) t.after := by
    intro hSame hOpen
    have hMarks : marks t.added = [] := by
      apply Advance.marks_added hRuns
      rw [hSame, List.append_nil]
    refine hGuarded.snoc_idle hLedger hMarks ?_ ?_
    · intro trigger hOwn
      rw [ownTrigger_snoc_first hFirst,
        Advance.added_trigger hMarks] at hOwn
      cases hOwn
    · intro hYes
      rw [hOpen] at hYes
      cases hYes
  cases hTurn with
  | stopped hSame _ hResult =>
      exact hIdle hSame (by simp [Advance.isOpen, hResult])
  | replayed _ hSame _ hResult =>
      exact hIdle hSame
        (by simp [Advance.isOpen, hResult, outcomeOnly])
  | @recorded triggerId _ hPrior hEnd =>
      have hNone :
          sinceLastOutcome (marks t.before.ledger) = [] := by
        apply openMarks_eq_nil
        rcases hAlone _ hRequest with hNone | hSome
        · exact hNone
        · exact absurd hPrior hSome
      cases hEnd with
      | opened hMarks hResult =>
          exact hGuarded.snoc_opened hLedger
            (Advance.marks_added hRuns hMarks) hFirst rfl
            hResult hNone
      | concluded outcome hConcluded hResult =>
          have hMarks :
              marks t.added =
                [.trigger ((requests loop).record triggerId)] ++
                  [.outcome outcome] := by
            apply Advance.marks_added hRuns
            rw [hConcluded.2, List.append_assoc]
          have hOwn :
              ownTrigger loop (events ++ [(loop, t)]) =
                some ((requests loop).record triggerId) := by
            rw [ownTrigger_snoc_first hFirst,
              Advance.added_trigger hMarks]
            rfl
          refine hGuarded.snoc_concluded hLedger hMarks
            (by simp) hOwn rfl hConcluded.1 hResult ?_ ?_
          · intro other hOther
            rw [hNone] at hOther
            cases hOther
          · intro other hOther
            exact absurd hOther (hGuarded.not_running hNone)

/- A later advance of a loop. -/
theorem Guarded.snoc_continue
    {cancelled : Bool}
    (hGuarded : Guarded requests events t.before)
    (hRuns : t.Runs reliable)
    (hRunning : IsRunning loop events)
    (hRequest :
      t.request = .continueWith
        ((requests loop).continuation cancelled)) :
    Guarded requests (events ++ [(loop, t)]) t.after := by
  have hLedger := Advance.ledger_eq .reliable hRuns
  have hTurn : ContinueTurn t.before t.after t.result := by
    unfold Advance.Runs at hRuns
    rw [hRequest] at hRuns
    exact exec_advanceContinue hRuns
  rcases hGuarded.running loop hRunning with
    ⟨trigger, hOwn, hOpen⟩
  have hStarted :
      ownTrigger loop (events ++ [(loop, t)]) =
        ownTrigger loop events := by
    apply ownTrigger_snoc
    rcases hRunning with ⟨last, hLast, _⟩
    intro hNil
    rw [hNil] at hLast
    cases hLast
  have hIdle : marks t.added = [] →
      (∀ result, t.result = some (.ok result) →
        result.outcome = none) →
        Guarded requests (events ++ [(loop, t)]) t.after := by
    intro hMarks hResult
    refine hGuarded.snoc_idle hLedger hMarks ?_
      (fun _ => hRunning)
    intro found hFound
    rw [hStarted] at hFound
    exact ⟨hFound, hResult⟩
  cases hTurn with
  | stopped hSame hResult =>
      refine hIdle ?_ (by simp [hResult])
      apply Advance.marks_added hRuns
      rw [hSame, List.append_nil]
  | nothing hActive _ _ _ =>
      rw [openMarks_eq_nil hActive] at hOpen
      cases hOpen
  | @resumed active hActive hEnd =>
      have hSame : active = trigger := by
        have hMem := activeTrigger_mem hActive
        rw [← mem_openMarks, hOpen, List.mem_singleton] at hMem
        cases hMem
        rfl
      subst hSame
      cases hEnd with
      | opened hMarks hResult =>
          refine hIdle ?_ hResult
          apply Advance.marks_added hRuns
          rw [hMarks, List.append_nil]
      | concluded outcome hConcluded hResult =>
          have hMarks :
              marks t.added = [] ++ [.outcome outcome] :=
            Advance.marks_added hRuns hConcluded.2
          refine hGuarded.snoc_concluded hLedger hMarks
            (by simp) (hStarted.trans hOwn)
            (hGuarded.own loop active hOwn) hConcluded.1
            hResult ?_ ?_
          · intro other hOther
            rw [hOpen, List.mem_singleton] at hOther
            cases hOther
            rfl
          · intro other hOther
            exact hGuarded.alone other loop hOther hRunning

/- The earlier advances of a loop are those of a loop. -/
theorem LoopOf.of_snoc
    {request : ProcessRequest}
    {done : List Advance}
    (hLoop : LoopOf request (done ++ [t])) :
    LoopOf request done := by
  generalize hList : done ++ [t] = list at hLoop
  cases hLoop with
  | idle => simp at hList
  | start _ =>
      rw [List.append_eq_singleton_iff] at hList
      rcases hList with ⟨hNil, _⟩ | ⟨hNil, _⟩
      · rw [hNil]
        exact .idle
      · rename_i hSame
        cases hSame
  | @next before last newest cancelled hEarlier _ _ =>
      have hSplit :
          done ++ [t] = (before ++ [last]) ++ [newest] := by
        rw [hList, List.append_assoc]
        rfl
      rw [(List.append_inj' hSplit rfl).1]
      exact hEarlier

theorem LoopOf.of_append
    {request : ProcessRequest}
    {done more : List Advance}
    (hLoop : LoopOf request (done ++ more)) :
    LoopOf request done := by
  induction more using List.reverseRecOn with
  | nil => rwa [List.append_nil] at hLoop
  | append_singleton more t ih =>
      rw [← List.append_assoc] at hLoop
      exact ih hLoop.of_snoc

/- A step of a loop keeps the session guarded. -/
theorem guarded_step
    (hGuarded : Guarded requests events t.before)
    (hRuns : t.Runs reliable)
    (hAlone : StartsAlone t)
    (hLoop :
      LoopOf (requests loop)
        (advancesOf loop (events ++ [(loop, t)]))) :
    Guarded requests (events ++ [(loop, t)]) t.after := by
  rw [advancesOf_snoc_same] at hLoop
  rcases hLoop.snoc_cases with ⟨hFirst, hRequest⟩ |
    ⟨last, cancelled, hLast, hOpen, hRequest⟩
  · exact hGuarded.snoc_trigger hRuns hAlone hFirst hRequest
  · exact hGuarded.snoc_continue hRuns ⟨last, hLast, hOpen⟩
      hRequest

theorem guarded_run
    {rest : List (Nat × Advance)}
    (hRun : Run reliable w (rest.map (·.2)) w')
    (hAlone : ∀ event ∈ rest, StartsAlone event.2)
    (hLoops : ∀ loop,
      LoopOf (requests loop)
        (advancesOf loop (events ++ rest)))
    (hGuarded : Guarded requests events w) :
    Guarded requests (events ++ rest) w' := by
  induction rest generalizing events w with
  | nil =>
      cases hRun
      rw [List.append_nil]
      exact hGuarded
  | cons event rest ih =>
      rcases event with ⟨loop, t⟩
      cases hRun with
      | cons hRuns hRest =>
          have hSplit :
              events ++ (loop, t) :: rest =
                (events ++ [(loop, t)]) ++ rest := by
            simp
          rw [hSplit] at hLoops ⊢
          have hLoop :
              LoopOf (requests loop)
                (advancesOf loop (events ++ [(loop, t)])) := by
            have hAll := hLoops loop
            unfold advancesOf at hAll ⊢
            rw [List.filter_append, List.map_append] at hAll
            exact hAll.of_append
          refine ih hRest ?_ hLoops ?_
          · intro event hMem
            exact hAlone event (List.mem_cons_of_mem _ hMem)
          · exact guarded_step hGuarded hRuns
              (hAlone _ List.mem_cons_self) hLoop

theorem guarded_empty
    (requests : Nat → ProcessRequest)
    (sessionId : String) :
    Guarded requests [] (World.empty sessionId) where
  keeps :=
    { returned := by simp [ownTrigger, advancesOf]
      recorded := by simp [advancesOf]
      kept := by simp [ownTrigger, advancesOf] }
  single := Nat.zero_le 1
  own := by simp [ownTrigger, advancesOf]
  running := by simp [IsRunning, advancesOf]
  alone := by simp [IsRunning, advancesOf]

end Events

/-
  Loops keep to their own triggers in every interleaving in
  which each trigger is recorded while no other is open.
-/
theorem loops_keep_to_own_triggers
    {requests : Nat → ProcessRequest}
    {events : List (Nat × Advance)}
    {sessionId : String}
    {w : World}
    (hLoops :
      Interleaved requests events (World.empty sessionId) w)
    (hAlone : ∀ event ∈ events, StartsAlone event.2) :
    KeepsToOwnTriggers requests events w :=
  (guarded_run hLoops.run hAlone hLoops.loops
    (guarded_empty requests sessionId)).keeps

------------------------------------------------------------
-- Two Loops
------------------------------------------------------------

namespace Sample

/- The first loop calls a skill, the second answers. -/
def overlappingTurns : List (Script × AdvanceRequest) :=
  [(callsFirst [call "a" (.object [])], .trigger message),
    (callsFirst [], .trigger message),
    (callsFirst [], .continueWith resume)]

/- The first loop ends before the second one starts. -/
def separateTurns : List (Script × AdvanceRequest) :=
  [(callsFirst [call "a" (.object [])], .trigger message),
    (callsFirst [], .continueWith resume),
    (callsFirst [call "a" (.object [])], .trigger message)]

/- The advances of two loops, labelled by their loops. -/
def labelled
    (loops : List Nat)
    (turns : List (Script × AdvanceRequest)) :
    List (Nat × Advance) :=
  loops.zip
    (Script.advances engine turns (World.empty "session"))

/- A trigger advance that finds no trigger open. -/
def isAlone (t : Advance) : Bool :=
  match t.request with
  | .trigger _ => (activeTrigger t.before.ledger).isNone
  | .continueWith _ => true

/- The two runs, evaluated. -/
theorem evaluated_turns :
    ((advancesOf 0
        (labelled [0, 0, 1] separateTurns)).head?.all
          Advance.isOpen = true ∧
      (advancesOf 0
        (labelled [0, 1, 0] overlappingTurns)).head?.all
          Advance.isOpen = true) ∧
      (∀ event ∈ labelled [0, 0, 1] separateTurns,
        isAlone event.2 = true) ∧
      (ownTrigger 0
        (labelled [0, 1, 0] overlappingTurns)).map
          (·.triggerId) = some "0" ∧
      ∃ t ∈ advancesOf 0 (labelled [0, 1, 0] overlappingTurns),
        t.returned.any (·.triggerId ≠ "0") = true := by
  decide +kernel

theorem separate_loops
    (loop : Nat) :
    LoopOf message
      (advancesOf loop (labelled [0, 0, 1] separateTurns)) := by
  by_cases hFirst : loop = 0
  · subst hFirst
    exact @LoopOf.next message [] _ _ false (.start rfl)
      evaluated_turns.1.1 rfl
  · by_cases hSecond : loop = 1
    · subst hSecond
      exact .start rfl
    · have hNone :
          advancesOf loop (labelled [0, 0, 1] separateTurns) =
            [] := by
        simp [advancesOf, labelled, separateTurns,
          Script.advances, hFirst, hSecond, eq_comm]
      rw [hNone]
      exact .idle

theorem overlapping_loops
    (loop : Nat) :
    LoopOf message
      (advancesOf loop
        (labelled [0, 1, 0] overlappingTurns)) := by
  by_cases hFirst : loop = 0
  · subst hFirst
    exact @LoopOf.next message [] _ _ false (.start rfl)
      evaluated_turns.1.2 rfl
  · by_cases hSecond : loop = 1
    · subst hSecond
      exact .start rfl
    · have hNone :
          advancesOf loop
              (labelled [0, 1, 0] overlappingTurns) =
            [] := by
        simp [advancesOf, labelled, overlappingTurns,
          Script.advances, hFirst, hSecond, eq_comm]
      rw [hNone]
      exact .idle

/- A run of three labelled advances. -/
theorem labelled_run
    (loops : List Nat)
    (turns : List (Script × AdvanceRequest))
    (hLength : turns.length ≤ loops.length) :
    Run reliable (World.empty "session")
      ((labelled loops turns).map (·.2))
      (Script.session engine turns (World.empty "session")) := by
  have hRun := Script.session_run engine turns
    (World.empty "session")
  unfold labelled
  have hSecond :
      (loops.zip (Script.advances engine turns
        (World.empty "session"))).map (·.2) =
        Script.advances engine turns
          (World.empty "session") := by
    apply List.map_snd_zip
    rw [Script.advances_length]
    exact hLength
  rw [hSecond]
  exact hRun

end Sample

set_option maxRecDepth 100000 in
/- Two loops, one after the other. -/
theorem loops_keep_to_own_triggers_separate :
    KeepsToOwnTriggers (fun _ => Sample.message)
      (Sample.labelled [0, 0, 1] Sample.separateTurns)
      (Script.session Sample.engine Sample.separateTurns
        (World.empty "session")) := by
  refine loops_keep_to_own_triggers
    ⟨Sample.labelled_run _ _ (Nat.le_refl 3),
      Sample.separate_loops⟩ ?_
  intro event hMem request hRequest
  have hAlone := Sample.evaluated_turns.2.1 event hMem
  unfold Sample.isAlone at hAlone
  rw [hRequest] at hAlone
  exact .inl (Option.isNone_iff_eq_none.mp hAlone)

set_option maxRecDepth 100000 in
/-
  The second loop ends while the first is open. The first one
  then finds no trigger to continue and returns an outcome of
  no trigger at all.
-/
theorem overlapping_loops_lose_trigger :
    ¬(∀ requests events sessionId w,
      Interleaved requests events (World.empty sessionId) w →
        KeepsToOwnTriggers requests events w) := by
  intro hAll
  have hKeeps := hAll (fun _ => Sample.message)
    (Sample.labelled [0, 1, 0] Sample.overlappingTurns)
    "session" _
    ⟨Sample.labelled_run _ _ (Nat.le_refl 3),
      Sample.overlapping_loops⟩
  rcases Sample.evaluated_turns.2.2 with
    ⟨hOwn, t, hMem, hAny⟩
  rcases Option.map_eq_some_iff.mp hOwn with
    ⟨trigger, hTrigger, hId⟩
  rw [Option.any_eq_true] at hAny
  rcases hAny with ⟨outcome, hSome, hForeign⟩
  have hSame :=
    (hKeeps.returned 0 trigger hTrigger t hMem outcome
      hSome).1
  rw [hId] at hSame
  simp [hSame] at hForeign

end RainEngine
