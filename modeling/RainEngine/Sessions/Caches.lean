import RainEngine.Advances.Footprint
import RainEngine.Approvals.Consent
import RainEngine.Logs.Views
import RainEngine.Sessions.Durability

/-
  This file proves when the cached projection of a session
  agrees with its ledger: the projection is the copy of the
  ledger that the kernel keeps by hand while it advances.

  Key definitions include:
    * `caching`
    * `CacheAgrees`
    * `IsUnmirrored`
    * `Advance.Mirrors`
    * `mirroring`

  Key theorems include:
    * `mirroring_rules`
    * `mirroring_finish`
    * `Advance.cacheAgrees`
    * `run_cacheAgrees`
-/

namespace RainEngine

open Effects

------------------------------------------------------------
-- Caches
------------------------------------------------------------

/- The cache keeps the projection it is given. -/
def ProjectionKept : (op : Op) → Answer op → Prop
| .setProjection _, a => a = true
| _, _ => True

/- The host with a store and a cache that never fail. -/
def caching : Machine Op Answer World :=
  reliable.restrict fun _ op a => ProjectionKept op a

theorem OnHost.caching : OnHost caching where
  next := rfl
  allowed := fun _ _ _ hAllowed => hAllowed.1.1

theorem not_storeFails_caching (w : World) :
    ¬StoreFails caching w := by
  intro hFails
  rcases hFails with ⟨op, a, hAllowed, hFailed⟩
  exact hFailed hAllowed.1.2

/-
  The cache has no entry for the session, or one with the
  records and the latest outcome of the ledger.
-/
def CacheAgrees (w : World) : Prop :=
  ∀ cached, w.cache = some cached →
    cached.records = w.snapshot.records ∧
      cached.latestOutcome = w.snapshot.latestOutcome

/-
  The records an advance appends without pushing them to its
  copy: a version of a plan after a step of it, a resolved
  approval, a deliberation, and those of a batch.
-/
def IsUnmirrored : SessionRecord → Prop
| .executionPlan plan => plan.currentStepIndex ≠ 0
| .approvalResolution _ => True
| .deliberation _ => True
| record => IsTrace record

/- The append of such a record. -/
def Op.Unmirrored : Op → Prop
| .append record => IsUnmirrored record
| _ => False

/-
  An advance that comes to append an outcome runs to its end
  and takes no branch that leaves a record unmirrored; any
  other one starts without a cache entry or appends nothing.
-/
structure Advance.Mirrors (t : Advance) : Prop where
  concluded : t.Finishes →
    t.result ≠ none ∧ ∀ s ∈ t.steps, ¬s.op.Unmirrored
  unconcluded : ¬t.Finishes →
    t.before.cache = none ∨ ∀ s ∈ t.steps, s.op.Silent

------------------------------------------------------------
-- The Copy Of The Ledger
------------------------------------------------------------

/-
  An advance that has appended no outcome yet. What is said
  of its copy holds unless it has left a record unmirrored.
-/
def Underway
    (base : List SessionRecord)
    (copied : Prop)
    (w : World) :
    Prop :=
  ∃ added, w.ledger = base ++ added ∧
    (∀ record ∈ added, record.isOutcome = false) ∧
    (copied ∨ ∃ record ∈ added, IsUnmirrored record)

/- An advance that has appended an outcome. -/
def HasConcluded
    (base : List SessionRecord)
    (w : World) :
    Prop :=
  ∃ added, w.ledger = base ++ added ∧
    ∃ record ∈ added, record.isOutcome = true

/- It has, and its copy holds the outcome as the latest. -/
def Closing
    (base : List SessionRecord)
    (outcome : OutcomeRecord)
    (context : AgentContext)
    (w : World) :
    Prop :=
  ∃ added, w.ledger = base ++ added ∧
    (∃ record ∈ added, record.isOutcome = true) ∧
    ((context.records = w.ledger ∧
        latestOutcome w.ledger = some outcome) ∨
      ∃ record ∈ added, IsUnmirrored record)

/- An advance that has cached its copy. -/
def Closed
    (base : List SessionRecord)
    (w : World) :
    Prop :=
  ∃ added, w.ledger = base ++ added ∧
    (CacheAgrees w ∨ ∃ record ∈ added, IsUnmirrored record)

section Copies

variable {base : List SessionRecord}
variable {copied copied' : Prop}
variable {context : AgentContext}
variable {outcome : OutcomeRecord}
variable {record : SessionRecord}
variable {w : World}

theorem Underway.init :
    Underway w.ledger True w :=
  ⟨[], (List.append_nil _).symm, by simp, .inl trivial⟩

theorem Underway.mono
    (hUnderway : Underway base copied w)
    (hCopied : copied → copied') :
    Underway base copied' w := by
  rcases hUnderway with ⟨added, hLedger, hNone, hCopy⟩
  exact ⟨added, hLedger, hNone, hCopy.imp_left hCopied⟩

/- One more record is appended. -/
theorem Underway.append
    (hUnderway : Underway base copied w)
    (hOther : record.isOutcome = false)
    (hCopied : copied → copied') :
    Underway base copied' (w.append record) := by
  rcases hUnderway with ⟨added, hLedger, hNone, hCopy⟩
  refine ⟨added ++ [record], ?_, ?_, ?_⟩
  · rw [World.append_ledger, hLedger, List.append_assoc]
  · intro other hMem
    rcases List.mem_append.mp hMem with hOld | hNew
    · exact hNone other hOld
    · rw [List.mem_singleton.mp hNew]
      exact hOther
  · rcases hCopy with hCopy | ⟨lost, hMem, hLost⟩
    · exact .inl (hCopied hCopy)
    · exact .inr ⟨lost, List.mem_append_left _ hMem, hLost⟩

/- One more record is appended and pushed. -/
theorem Underway.push
    (hUnderway : Underway base (context.records = w.ledger) w)
    (hOther : record.isOutcome = false) :
    Underway base
      ((context.push record).records =
        (w.append record).ledger)
      (w.append record) :=
  hUnderway.append hOther (congrArg (· ++ [record]))

/- One more record is appended that is not pushed. -/
theorem Underway.miss
    (hUnderway : Underway base copied w)
    (hMissed : IsUnmirrored record) :
    Underway base copied' (w.append record) := by
  have hOther : record.isOutcome = false := by
    cases record with
    | outcome _ => exact hMissed.elim
    | _ => rfl
  rcases hUnderway.append hOther (fun h => h) with
    ⟨added, hLedger, hNone, _⟩
  refine ⟨added, hLedger, hNone, .inr ⟨record, ?_, hMissed⟩⟩
  rcases hUnderway with ⟨earlier, hEarlier, _, _⟩
  rw [World.append_ledger, hEarlier, List.append_assoc]
    at hLedger
  rw [← List.append_cancel_left hLedger]
  simp

/- The outcome is pushed as it is appended. -/
theorem Underway.conclude
    (hUnderway : Underway base (context.records = w.ledger) w) :
    Closing base outcome (context.push (.outcome outcome))
      (w.append (.outcome outcome)) := by
  rcases hUnderway with ⟨added, hLedger, _, hCopy⟩
  refine ⟨added ++ [.outcome outcome], ?_,
    ⟨.outcome outcome, by simp, rfl⟩, ?_⟩
  · rw [World.append_ledger, hLedger, List.append_assoc]
  · rcases hCopy with hCopy | ⟨lost, hMem, hLost⟩
    · refine .inl ⟨?_, Logs.findSomeRev?_snoc⟩
      exact congrArg (· ++ [.outcome outcome]) hCopy
    · exact .inr ⟨lost, List.mem_append_left _ hMem, hLost⟩

/- So are the notes that come after it. -/
theorem Closing.push
    (hClosing : Closing base outcome context w)
    (hOther : record.isOutcome = false) :
    Closing base outcome (context.push record)
      (w.append record) := by
  rcases hClosing with ⟨added, hLedger, ⟨other, hMem, hIs⟩,
    hCopy⟩
  refine ⟨added ++ [record], ?_,
    ⟨other, List.mem_append_left _ hMem, hIs⟩, ?_⟩
  · rw [World.append_ledger, hLedger, List.append_assoc]
  · rcases hCopy with ⟨hCopy, hLatest⟩ | ⟨lost, hLost, hMiss⟩
    · refine .inl ⟨congrArg (· ++ [record]) hCopy, ?_⟩
      have hNone : record.asOutcome = none := by
        cases record with
        | outcome _ => cases hOther
        | _ => rfl
      rw [World.append_ledger, latestOutcome,
        Logs.findSomeRev?_snoc, hNone]
      exact hLatest
    · exact .inr ⟨lost, List.mem_append_left _ hLost, hMiss⟩

theorem Closing.hasConcluded
    (hClosing : Closing base outcome context w) :
    HasConcluded base w := by
  rcases hClosing with ⟨added, hLedger, hOutcome, _⟩
  exact ⟨added, hLedger, hOutcome⟩

/- The copy is cached with the outcome. -/
theorem Closing.close
    {snapshot : SessionSnapshot}
    (hClosing : Closing base outcome context w)
    (hRecords : snapshot.records = context.records)
    (hOutcome : snapshot.latestOutcome = some outcome) :
    Closed base (w.project snapshot) := by
  rcases hClosing with ⟨added, hLedger, _, hCopy⟩
  refine ⟨added, hLedger, hCopy.imp_left ?_⟩
  intro hCopied cached hCached
  rcases hCopied with ⟨hCopy, hLatest⟩
  cases hCached
  exact ⟨hRecords.trans hCopy, hOutcome.trans hLatest.symm⟩

end Copies

------------------------------------------------------------
-- The Assertions
------------------------------------------------------------

/-
  What is claimed of an advance: its copy has the records of
  the ledger, and it caches nothing before its outcome.
-/
def mirroring (base : List SessionRecord) : Assertions where
  holds stage w :=
    match stage with
    | .viewing fresh records =>
        Underway base (fresh = true → records = w.ledger) w
    | .acting _ context =>
        Underway base (context.records = w.ledger) w
    | .finished _ _ => False
  request w op :=
    ∀ snapshot, op = .setProjection snapshot →
      HasConcluded base w
  results _ context _ w :=
    Underway base (context.records = w.ledger) w
  returned _ w := Underway base True w ∨ Closed base w
  thrown w := Underway base True w

section Mirroring

variable {base : List SessionRecord}
variable {engine : AgentEngine}
variable {context : AgentContext}
variable {outcome : OutcomeRecord}
variable {w w' : World}

theorem mirroring_request
    {op : Op}
    (hOther : ∀ snapshot, op ≠ .setProjection snapshot) :
    (mirroring base).request w op :=
  fun snapshot hSame => absurd hSame (hOther snapshot)

theorem mirroring_append
    {record : SessionRecord} :
    (mirroring base).request w (.append record) := by
  intro snapshot hSame
  cases hSame

theorem IsNote.isOutcome_eq
    {record : SessionRecord}
    (hNote : IsNote record) :
    record.isOutcome = false := by
  cases record with
  | outcome _ => exact hNote.elim
  | _ => rfl

/- The notes after an outcome reach its copy. -/
theorem closing_annotates :
    Annotates caching (mirroring base).request
      (mirroring base).thrown (Closing base outcome) where
  uuid := by
    intro context w _ snapshot hSame
    cases hSame
  issue := fun hClosing _ => hClosing
  note := fun _ _ => mirroring_append
  noted := fun hClosing hNote =>
    hClosing.push hNote.isOutcome_eq
  thrown := fun _ hFails =>
    (not_storeFails_caching _ hFails).elim

/- The end of an advance caches its copy of the ledger. -/
theorem mirroring_finish
    {stopReason : StopReason}
    {response detail : Option String}
    {stepsExecuted : Nat}
    {resumeToken : Option ResumeToken}
    (hUnderway :
      Underway base (context.records = w.ledger) w) :
    Safe caching (mirroring base).request
      (fun outcome w' =>
        (mirroring base).returned (some outcome) w')
      (fun _ w' => (mirroring base).thrown w')
      (finish engine context stopReason response detail
        stepsExecuted resumeToken) w := by
  unfold finish
  rw [Safe.bind_iff]
  apply OnHost.caching.safe_append mirroring_append
  · apply Safe.bind
      (closing_annotates.safe_runSelfImprovement
        OnHost.caching hUnderway.conclude)
    intro context' w' hClosing
    rw [Safe.bind_iff, safe_perform]
    refine ⟨fun _ _ => hClosing.hasConcluded, ?_⟩
    intro stored hAllowed
    have hStored : stored = true := hAllowed.2
    subst hStored
    exact .inr (hClosing.close rfl rfl)
  · intro error hFails
    exact (not_storeFails_caching _ hFails).elim

theorem IsTrace.isUnmirrored
    {record : SessionRecord}
    (hTrace : IsTrace record) :
    IsUnmirrored record := by
  cases record <;> first | exact hTrace | exact hTrace.elim

/- A batch leaves all its records unmirrored. -/
theorem mirroring_batch
    {step : Nat}
    {calls : List PlannedSkillCall}
    {approvalOverride : Bool}
    (hUnderway :
      Underway base (context.records = w.ledger) w) :
    Safe caching (mirroring base).request
      (fun _ w' =>
        Underway base (context.records = w'.ledger) w')
      (fun _ w' =>
        Underway base (context.records = w'.ledger) w')
      (executePlannedCalls engine context step calls
        approvalOverride) w := by
  apply OnHost.caching.safe_batch (I := fun w' : World =>
    Underway base (context.records = w'.ledger) w')
  · intro w' op _ hBatch snapshot hSame
    subst hSame
    exact hBatch.elim
  · intro w' record hKept hTrace
    exact hKept.miss hTrace.isUnmirrored
  · intro w' uuid hKept _
    exact hKept
  · exact hUnderway

theorem mirroring_rules :
    StepRules caching engine (mirroring base) where
  quiet := by
    intro stage w op _ hQuiet snapshot hSame
    subst hSame
    exact hQuiet.elim
  issue := by
    intro stage w uuid hHolds _
    cases stage <;> exact hHolds
  lag := by
    intro stage w hHolds
    cases stage with
    | viewing _ _ =>
        exact Underway.mono hHolds fun _ hFlag => by cases hFlag
    | acting _ _ => exact hHolds
    | finished _ _ => exact hHolds
  note := fun _ _ => mirroring_append
  noted := by
    intro stage w record hHolds hRemark
    have hOther := hRemark.isNote.isOutcome_eq
    cases stage with
    | viewing _ _ =>
        exact Underway.append hHolds hOther
          fun _ hFlag => by cases hFlag
    | acting _ context =>
        exact Underway.push hHolds hOther
    | finished _ _ => exact hHolds.elim
  deliberated := fun hHolds => Underway.miss hHolds trivial
  fresh := fun hHolds => Underway.mono hHolds fun _ _ => rfl
  stale := fun _ hFails =>
    (not_storeFails_caching _ hFails.storeFails).elim
  summarize := fun _ => mirroring_request nofun
  propose := by
    intro flag records w uuid plan hHolds _ _ _ _
    refine ⟨mirroring_append, ?_⟩
    exact Underway.append (w := w.issue uuid) hHolds rfl
      fun _ hFlag => by cases hFlag
  ask := fun _ => mirroring_request nofun
  planStep := by
    intro context w plan action hHolds _
    exact ⟨mirroring_append,
      Underway.miss hHolds (Nat.succ_ne_zero _)⟩
  await := by
    intro ready context w pending hHolds _
    exact ⟨mirroring_append, Underway.push hHolds rfl⟩
  resolve := by
    intro context w pending resolution hHolds _ _
    exact ⟨mirroring_append, Underway.miss hHolds trivial⟩
  reject := fun hHolds => hHolds
  batch := by
    intro ready context w step calls override hHolds _
    refine Safe.mono (fun _ _ h => h) ?_
      (fun _ _ h => Underway.mono h fun _ => trivial)
      (mirroring_batch hHolds)
    intro execution w' hKept
    cases execution <;> exact hKept
  result := by
    intro ready context result rest w hHolds
    exact ⟨mirroring_append, Underway.push hHolds rfl⟩
  recorded := fun hHolds => hHolds
  lostResult := fun _ hFails =>
    (not_storeFails_caching _ hFails).elim
  finish := fun _ _ _ _ _ hHolds => mirroring_finish hHolds
  progress := fun hHolds =>
    .inl (Underway.mono hHolds fun _ => trivial)
  failed := fun _ hFails =>
    (not_storeFails_caching _ hFails).elim
  thrown := fun _ hFails =>
    (not_storeFails_caching _ hFails).elim

------------------------------------------------------------
-- Whole Advances
------------------------------------------------------------

theorem mirroring_advanceTrigger
    {request : ProcessRequest} :
    Ends caching (mirroring w.ledger)
      (advanceTrigger engine request) w := by
  apply OnHost.caching.safe_advanceTrigger
  · exact mirroring_request nofun
  · intro triggerId _ key
    exact mirroring_request nofun
  · intro triggerId _ prior _
    exact .inl Underway.init
  · intro triggerId _ _
    have hUnderway : ∀ {copied : Prop}, copied →
        Underway w.ledger copied
          ((w.issue triggerId).append
            (.trigger (request.record triggerId))) :=
      fun hCopied => Underway.append (w := w.issue triggerId)
        Underway.init rfl fun _ => hCopied
    refine ⟨mirroring_append, ?_, ?_⟩
    · intro error _
      exact .inl Underway.init
    · apply mirroring_rules.safe_processTrigger OnHost.caching
      · intro cached _
        exact hUnderway fun hFlag => by cases hFlag
      · exact hUnderway fun hFlag => by cases hFlag
      · intro error hFails
        exact (not_storeFails_caching _ hFails).elim
      · intro snapshot w' hHolds
        exact Underway.mono hHolds fun hFresh => hFresh rfl

theorem mirroring_advanceContinue
    {request : ContinueRequest} :
    Ends caching (mirroring w.ledger)
      (advanceContinue engine request) w := by
  apply OnHost.caching.safe_advanceContinue
  · exact mirroring_request nofun
  · intro error hFails
    exact (not_storeFails_caching _ hFails).elim
  · intro _
    refine ⟨mirroring_request nofun, ?_⟩
    intro triggerId _
    exact .inl Underway.init
  · intro trigger _
    apply mirroring_rules.safe_continueTrigger OnHost.caching
    exact Underway.init.mono fun _ => rfl

theorem mirroring_advance
    {request : AdvanceRequest} :
    Ends caching (mirroring w.ledger)
      (advance engine request) w := by
  cases request with
  | trigger request => exact mirroring_advanceTrigger
  | continueWith request => exact mirroring_advanceContinue

end Mirroring

------------------------------------------------------------
-- Advances That Mirror The Ledger
------------------------------------------------------------

section Advances

variable {t : Advance}

/- An advance has only what its steps append. -/
theorem Advance.mem_added
    {added : List SessionRecord}
    {record : SessionRecord}
    (hRuns : t.Runs caching)
    (hLedger : t.after.ledger = t.before.ledger ++ added)
    (hMem : record ∈ added) :
    ∃ s ∈ t.steps, s.op = .append record := by
  have hSame : t.added = added := by
    unfold Advance.added
    rw [hLedger, List.drop_left]
  rw [← hSame, Advance.added_eq .caching hRuns] at hMem
  exact mem_storedIn hMem

/- It has all of that, for the store does not fail. -/
theorem Advance.mem_of_append
    {added : List SessionRecord}
    {record : SessionRecord}
    {s : Step Op Answer World}
    (hRuns : t.Runs caching)
    (hLedger : t.after.ledger = t.before.ledger ++ added)
    (hStep : s ∈ t.steps)
    (hOp : s.op = .append record) :
    record ∈ added := by
  have hSame : t.added = added := by
    unfold Advance.added
    rw [hLedger, List.drop_left]
  rw [← hSame, Advance.added_eq .caching hRuns]
  apply List.mem_filterMap.mpr
  refine ⟨s, hStep, ?_⟩
  have hAnswered : StoreAnswered s.op s.answer :=
    (Exec.allowed hRuns s hStep).1.2
  rcases s with ⟨v, op, a⟩
  dsimp only at hOp
  subst hOp
  have hOk : a = .ok () := hAnswered
  subst hOk
  rfl

theorem HasConcluded.finishes
    (hRuns : t.Runs caching)
    (hConcluded : HasConcluded t.before.ledger t.after) :
    t.Finishes := by
  rcases hConcluded with ⟨added, hLedger, record, hMem, hIs⟩
  rcases t.mem_added hRuns hLedger hMem with ⟨s, hStep, hOp⟩
  refine ⟨s, hStep, ?_⟩
  rw [hOp]
  cases record with
  | outcome _ => trivial
  | _ => cases hIs

theorem Underway.not_finishes
    {copied : Prop}
    (hRuns : t.Runs caching)
    (hUnderway :
      Underway t.before.ledger copied t.after) :
    ¬t.Finishes := by
  intro hFinishes
  rcases hUnderway with ⟨added, hLedger, hNone, _⟩
  rcases hFinishes with ⟨s, hStep, hConcludes⟩
  unfold Op.Concludes at hConcludes
  split at hConcludes
  · rename_i record hOp
    have hMem := t.mem_of_append hRuns hLedger hStep hOp
    cases hNone _ hMem
  · exact hConcludes

/- Without an outcome nothing is cached. -/
theorem Advance.cache_eq
    (hRuns : t.Runs caching)
    (hNot : ¬t.Finishes) :
    t.after.cache = t.before.cache := by
  have hEither : HasConcluded t.before.ledger t.after ∨
      t.after.cache = t.before.cache := by
    refine (Safe.invariant
      (I := fun w => HasConcluded t.before.ledger w ∨
        w.cache = t.before.cache)
      mirroring_advance hRuns ?_ (.inr rfl)).2
    intro w op a hEither hRequest _
    cases op with
    | setProjection snapshot =>
        rcases hRequest snapshot rfl with
          ⟨added, hLedger, hOutcome⟩
        refine .inl ⟨added, ?_, hOutcome⟩
        cases a <;> exact hLedger
    | append record =>
        cases a with
        | error _ => exact hEither
        | ok _ =>
            rcases hEither with ⟨added, hLedger, other, hMem,
              hIs⟩ | hSame
            · refine .inl ⟨added ++ [record], ?_, other,
                List.mem_append_left _ hMem, hIs⟩
              have hAppend : w.ledger ++ [record] =
                  t.before.ledger ++ (added ++ [record]) := by
                rw [hLedger, List.append_assoc]
              exact hAppend
            · exact .inr hSame
    | _ => exact hEither
  rcases hEither with hConcluded | hSame
  · exact absurd (hConcluded.finishes hRuns) hNot
  · exact hSame

/- An advance that mirrors the ledger keeps the cache true. -/
theorem Advance.cacheAgrees
    (hRuns : t.Runs caching)
    (hMirrors : t.Mirrors)
    (hBefore : CacheAgrees t.before) :
    CacheAgrees t.after := by
  by_cases hFinishes : t.Finishes
  · rcases hMirrors.concluded hFinishes with
      ⟨hEnds, hMirrored⟩
    have hSafe : Ends caching (mirroring t.before.ledger)
        (advance t.engine t.request) t.before :=
      mirroring_advance
    have hResult := hSafe.result hRuns
    have hReturned :
        Underway t.before.ledger True t.after ∨
          Closed t.before.ledger t.after := by
      cases hEnd : t.result with
      | none => exact absurd hEnd hEnds
      | some result =>
          cases result with
          | ok result => exact hResult.1 result hEnd
          | error error =>
              exact .inl (hResult.2 error hEnd)
    rcases hReturned with hUnderway | hClosed
    · exact absurd hFinishes (hUnderway.not_finishes hRuns)
    · rcases hClosed with ⟨added, hLedger, hAgrees |
        ⟨record, hMem, hUnmirrored⟩⟩
      · exact hAgrees
      · rcases t.mem_added hRuns hLedger hMem with
          ⟨s, hStep, hOp⟩
        have hNot := hMirrored s hStep
        rw [hOp] at hNot
        exact absurd hUnmirrored hNot
  · have hCache := t.cache_eq hRuns hFinishes
    intro cached hCached
    rw [hCache] at hCached
    rcases hMirrors.unconcluded hFinishes with hNone | hSilent
    · rw [hNone] at hCached
      cases hCached
    · have hLedger : t.after.ledger = t.before.ledger := by
        refine (Exec.preserves
          (I := fun w => w.ledger = t.before.ledger) hRuns ?_
          rfl).2
        intro s hStep hSame _
        exact (hostNext_ledger_of_silent
          (hSilent s hStep)).trans hSame
      unfold World.snapshot
      rw [hLedger]
      exact hBefore cached hCached

end Advances

/-
  The cache agrees with the ledger after every advance of a
  run whose advances all mirror the ledger.
-/
theorem run_cacheAgrees
    {sessionId : String}
    {run : List Advance}
    {w : World}
    (hRun : Run caching (World.empty sessionId) run w)
    (hMirrors : ∀ t ∈ run, t.Mirrors) :
    ∀ t ∈ run, CacheAgrees t.after := by
  have hBefore := (hRun.preserves (I := CacheAgrees)
    (fun t hMem hRuns => t.cacheAgrees hRuns (hMirrors t hMem))
    (fun cached hCached => by cases hCached)).1
  intro t hMem
  exact t.cacheAgrees (hRun.runs t hMem) (hMirrors t hMem)
    (hBefore t hMem)

------------------------------------------------------------
-- Scripted Sessions
------------------------------------------------------------

instance (record : SessionRecord) : Decidable (IsTrace record) := by
  unfold IsTrace
  split <;> infer_instance

instance : DecidablePred IsUnmirrored := fun record => by
  unfold IsUnmirrored
  split <;> infer_instance

instance : DecidablePred Op.Unmirrored := fun op => by
  unfold Op.Unmirrored
  split <;> infer_instance

instance : DecidablePred Op.Silent := fun op => by
  unfold Op.Silent
  split <;> infer_instance

instance : DecidablePred Op.Concludes := fun op => by
  unfold Op.Concludes
  split <;> infer_instance

instance (t : Advance) : Decidable t.Finishes :=
  inferInstanceAs (Decidable (∃ s ∈ t.steps, s.op.Concludes))

instance (t : Advance) : Decidable t.Mirrors :=
  decidable_of_iff
    ((t.Finishes → t.result.isSome = true ∧
        ∀ s ∈ t.steps, ¬s.op.Unmirrored) ∧
      (¬t.Finishes → t.before.cache.isNone = true ∨
        ∀ s ∈ t.steps, s.op.Silent))
    (by
      rw [Option.isSome_iff_ne_none, Option.isNone_iff_eq_none]
      exact ⟨fun h => ⟨h.1, h.2⟩,
        fun h => ⟨h.concluded, h.unconcluded⟩⟩)

/- A scripted host keeps the projections it is given. -/
theorem Script.answer_allowed_caching
    {script : Script}
    {w : World}
    {op : Op}
    {a : Answer op}
    (hAnswer : script.answer w op = some a) :
    caching.allowed w op a := by
  refine ⟨Script.answer_allowed hAnswer, ?_⟩
  unfold answer at hAnswer
  split at hAnswer
  · cases hAnswer
  · cases op with
    | setProjection snapshot =>
        cases hAnswer
        rfl
    | _ => trivial

theorem Script.session_run_caching
    (engine : AgentEngine)
    (turns : List (Script × AdvanceRequest))
    (w : World) :
    Run caching w (advances engine turns w)
      (session engine turns w) :=
  session_run_on rfl engine turns w
    fun _ _ _ _ _ => answer_allowed_caching

namespace Sample

/- A batch, a response, and a session with nothing to do. -/
def calledTurns : List (Script × AdvanceRequest) :=
  [(callsFirst [call "a" (.object [])], .trigger message),
    (responds, .continueWith resume),
    (responds, .continueWith resume)]

end Sample

set_option maxRecDepth 100000 in
/- The cache agrees before, with and after an outcome. -/
theorem run_cacheAgrees_called :
    (Script.advances Sample.engine Sample.calledTurns
      (World.empty "session")).Forall
        fun t => CacheAgrees t.after :=
  List.forall_iff_forall_mem.mpr
    (run_cacheAgrees
      (Script.session_run_caching Sample.engine
        Sample.calledTurns (World.empty "session"))
      (by decide +kernel))

set_option maxRecDepth 100000 in
/- An approval that was resolved is cached as pending. -/
theorem resolved_approval_cached_pending :
    ¬∀ sessionId run w,
      Run caching (World.empty sessionId) run w →
        ∀ t ∈ run, t.result ≠ none → CacheAgrees t.after := by
  intro hAll
  have hRun := Script.session_run_caching Sample.nativeEngine
    Sample.approvedTurns (World.empty "session")
  have hShown : ∃ t ∈ Script.advances Sample.nativeEngine
      Sample.approvedTurns (World.empty "session"),
      t.result.isSome = true ∧
        ∃ cached ∈ t.after.cache,
          (findPendingApprovalByResumeToken cached.records
              "1").isSome = true ∧
            (findPendingApprovalByResumeToken t.after.ledger
              "1").isSome = false := by
    decide +kernel
  rcases hShown with ⟨t, hMem, hResult, cached, hCached,
    hPending, hResolved⟩
  have hAgrees := hAll _ _ _ hRun t hMem
    (Option.isSome_iff_ne_none.mp hResult)
  rw [(hAgrees cached hCached).1, World.snapshot_records,
    hResolved] at hPending
  cases hPending

end RainEngine
