import RainEngine.Runtime.Approvals
import RainEngine.Sessions.Delegations

/-
  This file is about the status and the activity a session
  view shows. The status is read off the latest outcome and
  the activity off the newest record of certain kinds, so both
  may be about work that newer work has followed.

  Key definitions include:
    * `deriveSessionStatus`
    * `deriveActivityState`
    * `TellsTruth`
    * `UpToDate`

  Key theorems include:
    * `tellsTruth_of_upToDate`
    * `upToDate_of_tellsTruth`
    * `run_tells_truth_iff`
-/

namespace RainEngine.Runtime

open Effects

------------------------------------------------------------
-- Status And Activity
------------------------------------------------------------

inductive SessionStatus where
  | empty
  | running
  | completed
  | suspended
  | delegated
  | stopped
  | failed
deriving DecidableEq

inductive SessionActivityState where
  | idle
  | reasoning
  | runningTools
  | waitingHuman
  | waitingExternal
  | scheduled
  | delegated
  | errored
deriving DecidableEq

/- The status after an outcome. -/
def outcomeStatus : StopReason → SessionStatus
| .responded => .completed
| .yielded => .completed
| .suspended => .suspended
| .delegated => .delegated
| .providerFailure => .failed
| .storageFailure => .failed
| .policyAborted => .failed
| .deadlineExceeded => .failed
| .cancelled => .failed
| .maxStepsReached => .stopped

def deriveSessionStatus
    (snapshot : SessionSnapshot)
    (pendingApproval : Option ApprovalView) :
    SessionStatus :=
  if snapshot.records.isEmpty then .empty
  else if pendingApproval.isSome then .suspended
  else
    match snapshot.latestOutcome with
    | none => .running
    | some outcome => outcomeStatus outcome.stopReason

/- The activity an outcome stands for, if it does for one. -/
def outcomeActivity :
    StopReason → Option SessionActivityState
| .delegated => some .delegated
| .providerFailure => some .errored
| .storageFailure => some .errored
| .policyAborted => some .errored
| .deadlineExceeded => some .errored
| .cancelled => some .errored
| _ => none

/- The activity a record stands for, if it does for one. -/
def recordActivity :
    SessionRecord → Option SessionActivityState
| .deliberation _ => some .reasoning
| .delegation _ => some .delegated
| .kernelEvent record =>
    match record.event with
    | .taskBlocked _ _ => some .waitingExternal
    | .wakeRequested _ => some .scheduled
    | .wakeScheduled _ => some .scheduled
    | _ => none
| .outcome outcome => outcomeActivity outcome.stopReason
| _ => none

def deriveActivityState
    (snapshot : SessionSnapshot)
    (pendingApproval : Option ApprovalView) :
    SessionActivityState :=
  if pendingApproval.isSome then .waitingHuman
  else if
      (activeToolExecutionGraph snapshot.records).isSome then
    .runningTools
  else
    match snapshot.records.findSomeRev? recordActivity with
    | some activity => activity
    | none =>
        match snapshot.latestOutcome.bind
            (outcomeActivity ·.stopReason) with
        | some activity => activity
        | none =>
            if (agentState snapshot.sessionId
                snapshot.records).pendingWake.isSome then
              .scheduled
            else .idle

/- The status of the session as its view shows it. -/
def sessionStatus (w : World) : SessionStatus :=
  deriveSessionStatus w.snapshot
    (latestPendingApproval w.snapshot)

def activityState (w : World) : SessionActivityState :=
  deriveActivityState w.snapshot
    (latestPendingApproval w.snapshot)

------------------------------------------------------------
-- Telling The Truth
------------------------------------------------------------

/- An accepted trigger is still waiting for its outcome. -/
def Awaits (w : World) : Prop :=
  activeTrigger w.ledger ≠ none

/-
  The latest outcome stands for the activity, and no trigger
  has been accepted since.
-/
def EndedIn
    (w : World)
    (activity : SessionActivityState) :
    Prop :=
  ∃ outcome,
    latestOutcome w.ledger = some outcome ∧
      outcomeActivity outcome.stopReason = some activity ∧
      ¬Awaits w

/-
  What is shown is true of the ledger. An approval is pending
  when `latestPendingApproval` shows one: the status is
  derived from that lookup, not from the store's.
-/
structure TellsTruth (w : World) : Prop where
  running :
    sessionStatus w = .running ↔
      Awaits w ∧ latestPendingApproval w.snapshot = none
  errored :
    activityState w = .errored → EndedIn w .errored
  delegated :
    activityState w = .delegated → EndedIn w .delegated

/- The newest record that stands for an activity. -/
def newestMark
    (records : List SessionRecord) :
    Option SessionRecord :=
  records.findSomeRev? fun record =>
    (recordActivity record).map fun _ => record

/-
  No trigger has been accepted since the latest outcome. With
  no graph to run, the newest mark is the latest outcome if
  it says that the session has failed or has delegated.
-/
structure UpToDate (w : World) : Prop where
  answered :
    latestOutcome w.ledger ≠ none → ¬Awaits w
  latest :
    activeToolExecutionGraph w.ledger = none →
      ∀ mark, newestMark w.ledger = some mark →
        recordActivity mark = some .errored ∨
            recordActivity mark = some .delegated →
          ∃ outcome, mark = .outcome outcome ∧
            latestOutcome w.ledger = some outcome

section Marks

variable {records : List SessionRecord}
variable {record mark : SessionRecord}
variable {outcome : OutcomeRecord}

theorem newestMark_snoc :
    newestMark (records ++ [record]) =
      ((recordActivity record).map fun _ => record).or
        (newestMark records) :=
  Logs.findSomeRev?_snoc

theorem latestOutcome_snoc :
    latestOutcome (records ++ [record]) =
      record.asOutcome.or (latestOutcome records) :=
  Logs.findSomeRev?_snoc

/- The activity is that of the newest mark. -/
theorem findSomeRev?_recordActivity :
    records.findSomeRev? recordActivity =
      (newestMark records).bind recordActivity := by
  induction records using List.reverseRecOn with
  | nil => rfl
  | append_singleton records record ih =>
      rw [Logs.findSomeRev?_snoc, newestMark_snoc, ih]
      cases hActivity : recordActivity record with
      | none => rfl
      | some activity => simp [hActivity]

/- A latest outcome that is a mark is the newest one. -/
theorem newestMark_eq_latest
    (hNewest : newestMark records = some mark)
    (hMark : mark.isOutcome = true)
    (hLatest : latestOutcome records = some outcome)
    (hActivity : outcomeActivity outcome.stopReason ≠ none) :
    mark = .outcome outcome := by
  induction records using List.reverseRecOn with
  | nil => cases hNewest
  | append_singleton records record ih =>
      rw [newestMark_snoc] at hNewest
      rw [latestOutcome_snoc] at hLatest
      cases hRecord : recordActivity record with
      | some activity =>
          rw [hRecord] at hNewest
          cases hNewest
          cases record with
          | outcome other =>
              cases hLatest
              rfl
          | _ => cases hMark
      | none =>
          rw [hRecord] at hNewest
          cases record with
          | outcome other =>
              cases hLatest
              exact absurd hRecord hActivity
          | _ => exact ih hNewest hLatest

/-
  A newest mark that is a delegation comes after every
  outcome that is a mark, and then a trigger is waiting.
-/
theorem awaits_of_delegation
    {delegation : DelegationRecord}
    (hGrounded : Grounded records)
    (hNewest :
      newestMark records = some (.delegation delegation))
    (hLatest : latestOutcome records = some outcome)
    (hActivity : outcomeActivity outcome.stopReason ≠ none) :
    activeTrigger records ≠ none := by
  induction records using List.reverseRecOn with
  | nil => cases hNewest
  | append_singleton records record ih =>
      obtain ⟨hEarlier, hLast⟩ := hGrounded.of_snoc
      rw [newestMark_snoc] at hNewest
      rw [latestOutcome_snoc] at hLatest
      cases hRecord : recordActivity record with
      | some activity =>
          rw [hRecord] at hNewest
          cases hNewest
          exact awaits_snoc ((hLast rfl).2 delegation rfl) rfl
      | none =>
          rw [hRecord] at hNewest
          cases record with
          | outcome other =>
              cases hLatest
              exact absurd hRecord hActivity
          | _ =>
              exact awaits_snoc (ih hEarlier hNewest hLatest) rfl

/- A kernel event stands for neither bad end. -/
theorem kernelEvent_not_bad
    (record : KernelEventRecord) :
    ¬(recordActivity (.kernelEvent record) = some .errored ∨
      recordActivity (.kernelEvent record) =
        some .delegated) := by
  cases hEvent : record.event <;>
    simp [recordActivity, hEvent]

/- The first trigger waits until there is an outcome. -/
theorem awaits_of_no_outcome
    {trigger : TriggerRecord}
    {rest : List SessionRecord}
    (hRecords : records = .trigger trigger :: rest)
    (hNone : latestOutcome records = none) :
    activeTrigger records ≠ none := by
  have hOutcomes : ∀ record ∈ records,
      record.isOutcome = false := by
    intro record hMem
    unfold latestOutcome at hNone
    rw [List.findSomeRev?_eq_findSome?_reverse,
      List.findSome?_eq_none_iff] at hNone
    have hRecord := hNone record (List.mem_reverse.mpr hMem)
    cases record with
    | outcome outcome => cases hRecord
    | _ => rfl
  have hSlice := @sinceLastOutcome_append_list [] _
    hOutcomes
  rw [List.nil_append] at hSlice
  unfold activeTrigger
  rw [hSlice, hRecords]
  exact Option.some_ne_none trigger

end Marks

------------------------------------------------------------
-- When They Are True
------------------------------------------------------------

section Truth

variable {w : World}
variable {activity : SessionActivityState}

/- While an approval is shown the session waits for it. -/
theorem tellsTruth_of_shown
    (hShown : latestPendingApproval w.snapshot ≠ none) :
    TellsTruth w := by
  obtain ⟨view, hView⟩ := Option.ne_none_iff_exists'.mp hShown
  have hActivity : activityState w = .waitingHuman := by
    simp [activityState, deriveActivityState, hView]
  constructor
  · constructor
    · intro hRunning
      unfold sessionStatus deriveSessionStatus at hRunning
      rw [hView] at hRunning
      split at hRunning
      · cases hRunning
      · simp at hRunning
    · intro hBoth
      exact absurd hBoth.2 hShown
  · intro hErrored
    rw [hActivity] at hErrored
    cases hErrored
  · intro hDelegated
    rw [hActivity] at hDelegated
    cases hDelegated

theorem outcomeStatus_ne_running
    (stopReason : StopReason) :
    outcomeStatus stopReason ≠ .running := by
  cases stopReason <;> simp [outcomeStatus]

/- Without an approval to wait for, there is no outcome. -/
theorem running_iff
    (hHidden : latestPendingApproval w.snapshot = none) :
    sessionStatus w = .running ↔
      w.ledger ≠ [] ∧ latestOutcome w.ledger = none := by
  unfold sessionStatus deriveSessionStatus
  rw [hHidden, World.snapshot_records]
  have hLatest :
      w.snapshot.latestOutcome = latestOutcome w.ledger := rfl
  rw [hLatest]
  by_cases hEmpty : w.ledger = []
  · simp [hEmpty]
  · cases hOutcome : latestOutcome w.ledger with
    | none => simp [hEmpty]
    | some outcome =>
        simp [hEmpty, outcomeStatus_ne_running]

/- Without a mark the latest outcome is none either. -/
theorem outcomeActivity_of_unmarked
    (hNone : newestMark w.ledger = none) :
    (latestOutcome w.ledger).bind
      (outcomeActivity ·.stopReason) = none := by
  cases hLatest : latestOutcome w.ledger with
  | none => rfl
  | some outcome =>
      obtain ⟨before, record, after, hLedger, hRecord, _⟩ :=
        Logs.findSomeRev?_eq_some_iff.mp hLatest
      unfold newestMark at hNone
      rw [List.findSomeRev?_eq_findSome?_reverse,
        List.findSome?_eq_none_iff] at hNone
      have hMark := hNone record (by simp [hLedger])
      cases record with
      | outcome other =>
          cases hRecord
          exact Option.map_eq_none_iff.mp hMark
      | _ => cases hRecord

/- A bad end is read off the newest mark. -/
theorem activityState_mark
    (hHidden : latestPendingApproval w.snapshot = none)
    (hBad : activity = .errored ∨ activity = .delegated) :
    activityState w = activity ↔
      activeToolExecutionGraph w.ledger = none ∧
        ∃ mark, newestMark w.ledger = some mark ∧
          recordActivity mark = some activity := by
  unfold activityState deriveActivityState
  rw [hHidden, World.snapshot_records,
    findSomeRev?_recordActivity]
  have hLatest :
      w.snapshot.latestOutcome = latestOutcome w.ledger := rfl
  rw [hLatest]
  cases hGraph : activeToolExecutionGraph w.ledger with
  | some graph =>
      cases hBad with
      | inl hErrored => simp [hErrored]
      | inr hDelegated => simp [hDelegated]
  | none =>
      cases hNewest : newestMark w.ledger with
      | some mark =>
          obtain ⟨before, record, after, _, hRecord, _⟩ :=
            Logs.findSomeRev?_eq_some_iff.mp hNewest
          obtain ⟨marked, hMarked, hSame⟩ :=
            Option.map_eq_some_iff.mp hRecord
          subst hSame
          simp [hMarked]
      | none =>
          rw [outcomeActivity_of_unmarked hNewest]
          by_cases hWake :
              (agentState w.snapshot.sessionId
                w.ledger).pendingWake.isSome = true
          · cases hBad with
            | inl hErrored => simp [hErrored, hWake]
            | inr hDelegated => simp [hDelegated, hWake]
          · cases hBad with
            | inl hErrored => simp [hErrored, hWake]
            | inr hDelegated => simp [hDelegated, hWake]

/- An up-to-date ledger has ended in what it says. -/
theorem endedIn_of_upToDate
    (hHidden : latestPendingApproval w.snapshot = none)
    (hUpToDate : UpToDate w)
    (hBad : activity = .errored ∨ activity = .delegated)
    (hActivity : activityState w = activity) :
    EndedIn w activity := by
  obtain ⟨hGraph, mark, hNewest, hMark⟩ :=
    (activityState_mark hHidden hBad).mp hActivity
  have hEither :
      recordActivity mark = some .errored ∨
        recordActivity mark = some .delegated := by
    rw [hMark]
    exact hBad.imp (congrArg some) (congrArg some)
  obtain ⟨outcome, hSame, hLatest⟩ :=
    hUpToDate.latest hGraph mark hNewest hEither
  subst hSame
  refine ⟨outcome, hLatest, hMark, ?_⟩
  apply hUpToDate.answered
  rw [hLatest]
  exact Option.some_ne_none outcome

theorem tellsTruth_of_upToDate
    (hGrounded : Grounded w.ledger)
    (hUpToDate : UpToDate w) :
    TellsTruth w := by
  by_cases hShown : latestPendingApproval w.snapshot = none
  · constructor
    · rw [running_iff hShown]
      constructor
      · intro hBoth
        refine ⟨?_, hShown⟩
        obtain ⟨trigger, rest, hLedger⟩ :=
          hGrounded.exists_trigger hBoth.1
        exact awaits_of_no_outcome hLedger hBoth.2
      · intro hBoth
        refine ⟨ne_nil_of_awaits hBoth.1, ?_⟩
        by_contra hOutcome
        exact hUpToDate.answered hOutcome hBoth.1
    · exact endedIn_of_upToDate hShown hUpToDate (.inl rfl)
    · exact endedIn_of_upToDate hShown hUpToDate (.inr rfl)
  · exact tellsTruth_of_shown hShown

theorem upToDate_of_tellsTruth
    (hGrounded : Grounded w.ledger)
    (hHidden : latestPendingApproval w.snapshot = none)
    (hTruth : TellsTruth w) :
    UpToDate w := by
  constructor
  · intro hOutcome hAwaits
    have hRunning := hTruth.running.mpr ⟨hAwaits, hHidden⟩
    rw [running_iff hHidden] at hRunning
    exact hOutcome hRunning.2
  · intro hGraph mark hNewest hMark
    -- The activity shown is that of the mark.
    have hEnded : ∃ activity,
        recordActivity mark = some activity ∧
          EndedIn w activity := by
      cases hMark with
      | inl hErrored =>
          refine ⟨_, hErrored, hTruth.errored ?_⟩
          rw [activityState_mark hHidden (.inl rfl)]
          exact ⟨hGraph, mark, hNewest, hErrored⟩
      | inr hDelegated =>
          refine ⟨_, hDelegated, hTruth.delegated ?_⟩
          rw [activityState_mark hHidden (.inr rfl)]
          exact ⟨hGraph, mark, hNewest, hDelegated⟩
    obtain ⟨activity, hActivity, outcome, hLatest, hSame,
      hAnswered⟩ := hEnded
    have hBad : outcomeActivity outcome.stopReason ≠ none := by
      rw [hSame]
      exact Option.some_ne_none activity
    cases mark with
    | outcome other =>
        have hEq :=
          newestMark_eq_latest hNewest rfl hLatest hBad
        exact ⟨outcome, hEq, hLatest⟩
    | delegation delegation =>
        exact absurd
          (awaits_of_delegation hGrounded hNewest hLatest hBad)
          hAnswered
    | deliberation _ =>
        cases hMark with
        | inl hErrored => cases hErrored
        | inr hDelegated => cases hDelegated
    | kernelEvent record =>
        exact absurd hMark (kernelEvent_not_bad record)
    | _ =>
        cases hActivity

end Truth

/-
  In every state of every run the view tells the truth exactly
  when it shows an approval or the ledger is up to date.
-/
theorem run_tells_truth_iff
    (sessionId : String)
    (run : List Advance)
    (w : World)
    (hRun : Run host (World.empty sessionId) run w) :
    TellsTruth w ↔
      (latestPendingApproval w.snapshot ≠ none ∨
        UpToDate w) := by
  have hGrounded : Grounded w.ledger :=
    hRun.grounded .host grounded_nil
  constructor
  · intro hTruth
    by_cases hHidden :
        latestPendingApproval w.snapshot = none
    · exact .inr
        (upToDate_of_tellsTruth hGrounded hHidden hTruth)
    · exact .inl hHidden
  · intro hCondition
    cases hCondition with
    | inl hShown => exact tellsTruth_of_shown hShown
    | inr hUpToDate =>
        exact tellsTruth_of_upToDate hGrounded hUpToDate

------------------------------------------------------------
-- A Session That Goes On
------------------------------------------------------------

namespace Sample

open RainEngine.Sample

/- A message the provider answers. -/
def answered : List (Script × AdvanceRequest) :=
  [(responds, .trigger message)]

/- A cancelled message, and one that is answered. -/
def recovered : List (Script × AdvanceRequest) :=
  (responds, .trigger { message with cancelled := true }) ::
    answered

/- The provider has not answered the next message yet. -/
def asked : List (Script × AdvanceRequest) :=
  recovered ++
    [({ responds with
        stopsAt := fun op =>
          match op with
          | .generateAction _ _ => true
          | _ => false },
      .trigger message)]

def after
    (turns : List (Script × AdvanceRequest)) :
    World :=
  Script.session engine turns (World.empty "session")

end Sample

set_option maxRecDepth 100000 in
/- After one answer the view tells the truth. -/
theorem run_tells_truth_answered :
    sessionStatus (Sample.after Sample.answered) =
        .completed ∧
      TellsTruth (Sample.after Sample.answered) := by
  refine ⟨by decide +kernel, ?_⟩
  apply (run_tells_truth_iff "session" _ _
    (Script.session_run RainEngine.Sample.engine
      Sample.answered (World.empty "session")).of_reliable).mpr
  right
  constructor
  · intro _ hAwaits
    exact hAwaits rfl
  · intro _ mark hNewest
    cases hNewest

set_option maxRecDepth 100000 in
/-
  The view of an answered session says it has failed, and the
  view of a session at work says it has completed.
-/
theorem recovered_session_errored :
    activityState (Sample.after Sample.recovered) = .errored ∧
      sessionStatus (Sample.after Sample.asked) = .completed ∧
      ¬TellsTruth (Sample.after Sample.recovered) ∧
      ¬TellsTruth (Sample.after Sample.asked) := by
  have hErrored :
      activityState (Sample.after Sample.recovered) =
        .errored := by
    decide +kernel
  have hCompleted :
      sessionStatus (Sample.after Sample.asked) =
        .completed := by
    decide +kernel
  refine ⟨hErrored, hCompleted, ?_, ?_⟩
  · intro hTruth
    obtain ⟨outcome, hLatest, hActivity, _⟩ :=
      hTruth.errored hErrored
    cases hLatest
    cases hActivity
  · intro hTruth
    have hAwaits : Awaits (Sample.after Sample.asked) := by
      intro hNone
      cases hNone
    have hRunning := hTruth.running.mpr ⟨hAwaits, rfl⟩
    rw [hCompleted] at hRunning
    cases hRunning

end RainEngine.Runtime
