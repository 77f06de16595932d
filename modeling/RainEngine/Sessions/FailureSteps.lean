import RainEngine.Sessions.Breakers
import RainEngine.Sessions.Runs

/-
  This file is about the count of failed steps a session is
  stopped for. The kernel reads it off the decisions of the
  ledger; here it is compared with the batches that have been
  recorded, whether a decision of the slice asked for them or
  not.

  Key definitions include:
    * `SessionStep`
    * `failedBatchRun`
    * `askedCalls`
    * `BatchDone`
    * `Attributed`

  Key theorems include:
    * `failedRun_flatMap`
    * `Attributed.snoc`
    * `Attributed.count_eq`
-/

namespace RainEngine

open Effects

------------------------------------------------------------
-- Batches Of A Ledger
------------------------------------------------------------

/- What a session does, as its ledger tells it. -/
inductive SessionStep where
  | decided (action : AgentAction)
  | batch (results : List ToolResultRecord)

/-
  The steps of a ledger, newest first. Results recorded one
  right after the other are one batch.
-/
structure SessionSteps where
  newest : List SessionStep
  recording : Bool

namespace SessionSteps

def empty : SessionSteps where
  newest := []
  recording := false

/- The newest batch with one more result. -/
def extend
    (result : ToolResultRecord) :
    List SessionStep → List SessionStep
| .batch results :: older =>
    .batch (results ++ [result]) :: older
| older => older

def addRecord
    (steps : SessionSteps) :
    SessionRecord → SessionSteps
| .modelDecision decision =>
    { newest := .decided decision.action :: steps.newest
      recording := false }
| .toolResult result =>
    { newest :=
        if steps.recording then extend result steps.newest
        else .batch [result] :: steps.newest
      recording := true }
| _ => { steps with recording := false }

def ofRecords (records : List SessionRecord) : SessionSteps :=
  records.foldl addRecord empty

end SessionSteps

/-
  The number of newest batches all of whose calls have
  failed. The decision that asked for a batch does not end
  the run, any other decision does.
-/
def failedRun : List SessionStep → Nat
| .batch results :: .decided (.callSkills _) :: older =>
    if results.all (fun result => !result.isOk) then
      failedRun older + 1
    else 0
| .batch results :: older =>
    if results.all (fun result => !result.isOk) then
      failedRun older + 1
    else 0
| _ => 0

/- The failed batches in a row since the last outcome. -/
def failedBatchRun (records : List SessionRecord) : Nat :=
  failedRun
    (SessionSteps.ofRecords (sinceLastOutcome records)).newest

------------------------------------------------------------
-- Asked Batches
------------------------------------------------------------

/- What a record says about the calls that are asked for. -/
def SessionRecord.asks :
    SessionRecord → Option (Option (List PlannedSkillCall))
| .modelDecision decision =>
    match decision.action with
    | .callSkills calls => some (some calls)
    | _ => some none
| .deliberation _ => some none
| .toolResult _ => some none
| .outcome _ => some none
| _ => none

/-
  The calls of the newest decision, with nothing decided,
  deliberated, recorded or concluded since.
-/
def askedCalls
    (records : List SessionRecord) :
    Option (List PlannedSkillCall) :=
  (records.findSomeRev? SessionRecord.asks).join

/- The results that have been recorded last. -/
def newestBatch
    (records : List SessionRecord) :
    List SessionRecord :=
  records.rtakeWhile SessionRecord.isToolResult

/-
  No batch is in progress: all its results are recorded. A
  batch that is stuck, with calls that never get a result,
  stays in progress.
-/
def BatchDone (records : List SessionRecord) : Prop :=
  newestBatch records = [] ∨
    ∃ calls, askedCalls (batchBase records) = some calls ∧
      (newestBatch records).length = calls.length

/-
  A record in order: a result follows the decision that asked
  for its batch, and nothing but an outcome is recorded before
  the batch is whole.
-/
def Batched
    (records : List SessionRecord) :
    SessionRecord → Prop
| .toolResult _ => askedCalls (batchBase records) ≠ none
| .outcome _ => True
| _ => BatchDone records

------------------------------------------------------------
-- Windows And Batches
------------------------------------------------------------

/- The steps a window of the kernel stands for. -/
def windowSteps
    (window : AgentAction × List ToolResultRecord) :
    List SessionStep :=
  if window.2 = [] then [.decided window.1]
  else [.batch window.2, .decided window.1]

/- A window without results, or with all that were asked. -/
def IsWhole
    (window : AgentAction × List ToolResultRecord) :
    Prop :=
  window.2 = [] ∨
    ∃ calls, window.1 = .callSkills calls ∧
      window.2.length = calls.length

/- The windows of the slice, the last one open. -/
def sliceWindows
    (records : List SessionRecord) :
    DecisionWindows :=
  (sinceLastOutcome records).foldl DecisionWindows.addRecord
    .empty

def sliceSteps (records : List SessionRecord) : SessionSteps :=
  SessionSteps.ofRecords (sinceLastOutcome records)

/- The steps of the window that is open. -/
def DecisionWindows.openSteps
    (windows : DecisionWindows) :
    List SessionStep :=
  match windows.action with
  | some action => windowSteps (action, windows.results)
  | none => []

section Windows

variable {records : List SessionRecord}
variable {record : SessionRecord}

theorem isFailedBatch_none
    (action : AgentAction) :
    isFailedBatch (action, []) = false := by
  unfold isFailedBatch
  cases action with
  | callSkills calls => cases calls <;> rfl
  | _ => rfl

theorem isFailedBatch_whole
    {calls : List PlannedSkillCall}
    {results : List ToolResultRecord}
    (hSome : results ≠ [])
    (hLength : results.length = calls.length) :
    isFailedBatch (.callSkills calls, results) =
      results.all (fun result => !result.isOk) := by
  have hCalls : calls ≠ [] := by
    intro hNone
    rw [hNone] at hLength
    exact hSome (List.eq_nil_of_length_eq_zero hLength)
  simp [isFailedBatch, hLength, hCalls]

/- The failed windows in front are the failed batches. -/
theorem failedRun_flatMap
    {windows : List (AgentAction × List ToolResultRecord)}
    (hWhole : ∀ window ∈ windows, IsWhole window) :
    failedRun (windows.flatMap windowSteps) =
      (windows.takeWhile isFailedBatch).length := by
  induction windows with
  | nil => rfl
  | cons window windows ih =>
      obtain ⟨action, results⟩ := window
      have hRest := ih fun other hMem =>
        hWhole other (List.mem_cons_of_mem _ hMem)
      rw [List.flatMap_cons, List.takeWhile_cons]
      by_cases hNone : results = []
      · subst hNone
        rw [isFailedBatch_none]
        rfl
      · rcases hWhole (action, results) (by simp) with
          hEmpty | ⟨calls, hCalls, hLength⟩
        · exact absurd hEmpty hNone
        · dsimp only at hCalls hLength
          subst hCalls
          have hSteps : windowSteps (.callSkills calls, results) =
              [.batch results, .decided (.callSkills calls)] :=
            if_neg hNone
          rw [hSteps, isFailedBatch_whole hNone hLength,
            List.cons_append, List.cons_append, failedRun,
            List.nil_append, hRest]
          by_cases hFailed :
              results.all (fun result => !result.isOk) = true
          · rw [if_pos hFailed, if_pos hFailed, List.length_cons]
          · rw [if_neg hFailed, if_neg hFailed, List.length_nil]

end Windows

------------------------------------------------------------
-- Snoc Rules
------------------------------------------------------------

section Snocs

variable {records : List SessionRecord}
variable {record : SessionRecord}

theorem sliceWindows_snoc
    (hOpen : record.isOutcome = false) :
    sliceWindows (records ++ [record]) =
      (sliceWindows records).addRecord record := by
  unfold sliceWindows
  rw [sinceLastOutcome_append, hOpen]
  simp

theorem sliceSteps_snoc
    (hOpen : record.isOutcome = false) :
    sliceSteps (records ++ [record]) =
      (sliceSteps records).addRecord record := by
  unfold sliceSteps SessionSteps.ofRecords
  rw [sinceLastOutcome_append, hOpen]
  simp

theorem newestBatch_result
    (result : ToolResultRecord) :
    newestBatch (records ++ [.toolResult result]) =
      newestBatch records ++ [.toolResult result] :=
  List.rtakeWhile_concat_pos _ _ _ rfl

theorem newestBatch_other
    (hOther : record.isToolResult = false) :
    newestBatch (records ++ [record]) = [] := by
  unfold newestBatch
  apply List.rtakeWhile_concat_neg
  simp [hOther]

theorem askedCalls_snoc
    (records : List SessionRecord)
    (record : SessionRecord) :
    askedCalls (records ++ [record]) =
      match record.asks with
      | some asked => asked
      | none => askedCalls records := by
  unfold askedCalls
  rw [List.findSomeRev?_eq_findSome?_reverse,
    List.findSomeRev?_eq_findSome?_reverse,
    List.reverse_append, List.reverse_singleton,
    List.singleton_append, List.findSome?_cons]
  cases record.asks <;> rfl

/- Without results last, nothing is left to drop. -/
theorem batchBase_of_newestBatch
    (hNone : newestBatch records = []) :
    batchBase records = records := by
  unfold batchBase
  rw [List.rdropWhile_eq_self_iff]
  unfold newestBatch at hNone
  rw [List.rtakeWhile_eq_nil_iff] at hNone
  exact hNone

/- Nothing is asked for once results are recorded. -/
theorem newestBatch_of_asked
    {calls : List PlannedSkillCall}
    (hAsked : askedCalls records = some calls) :
    newestBatch records = [] := by
  cases records using List.reverseRecOn with
  | nil => rfl
  | append_singleton records record =>
      rw [askedCalls_snoc] at hAsked
      apply newestBatch_other
      cases record with
      | toolResult result => cases hAsked
      | _ => rfl

/- A record that asks for nothing changes no window. -/
theorem quiet_of_asks
    (hAsks : record.asks = none) :
    record.isOutcome = false ∧ record.isToolResult = false ∧
      (∀ windows, DecisionWindows.addRecord windows record =
        windows) ∧
      ∀ steps, SessionSteps.addRecord steps record =
        { steps with recording := false } := by
  cases record with
  | modelDecision decision =>
      obtain ⟨step, action⟩ := decision
      cases action <;> cases hAsks
  | deliberation _ => cases hAsks
  | toolResult _ => cases hAsks
  | outcome _ => cases hAsks
  | _ => exact ⟨rfl, rfl, fun _ => rfl, fun _ => rfl⟩

/- Such a record does not change the count of the kernel. -/
theorem failureSteps_snoc
    (hAsks : record.asks = none) :
    currentConsecutiveToolFailureSteps (records ++ [record]) =
      currentConsecutiveToolFailureSteps records := by
  obtain ⟨hOpen, _, hWindows, _⟩ := quiet_of_asks hAsks
  have hSame := @sliceWindows_snoc records record hOpen
  rw [hWindows] at hSame
  have hClosed : ∀ records,
      currentConsecutiveToolFailureSteps records =
        (((sliceWindows records).close none).closed.reverse.takeWhile
          isFailedBatch).length :=
    fun _ => rfl
  rw [hClosed, hClosed, hSame]

theorem Batched.done
    (hBatched : Batched records record)
    (hOther : record.isToolResult = false)
    (hOpen : record.isOutcome = false) :
    BatchDone records := by
  cases record with
  | toolResult _ => cases hOther
  | outcome _ => cases hOpen
  | _ => exact hBatched

end Snocs

------------------------------------------------------------
-- Attributed Results
------------------------------------------------------------

/-
  The windows of the kernel hold the batches of the ledger:
  each result stands in the window of the decision that asked
  for it, and only the newest batch may be in progress.
-/
structure Attributed (records : List SessionRecord) : Prop where
  steps :
    (sliceSteps records).newest =
      (sliceWindows records).openSteps ++
        (sliceWindows records).closed.reverse.flatMap
          windowSteps
  recording :
    (sliceSteps records).recording = true ↔
      newestBatch records ≠ []
  idle :
    (sliceWindows records).action = none →
      (sliceWindows records).results = []
  closed : ∀ window ∈ (sliceWindows records).closed,
    IsWhole window
  whole : newestBatch records = [] →
    ∀ action, (sliceWindows records).action = some action →
      IsWhole (action, (sliceWindows records).results)
  length : newestBatch records ≠ [] →
    (newestBatch records).length =
      (sliceWindows records).results.length
  asked : ∀ calls,
    askedCalls (batchBase records) = some calls →
      (sliceWindows records).action =
          some (.callSkills calls) ∧
        (newestBatch records = [] →
          (sliceWindows records).results = [])

section Attribution

variable {records : List SessionRecord}
variable {record : SessionRecord}

theorem attributed_of_outcome
    {outcome : OutcomeRecord} :
    Attributed (records ++ [.outcome outcome]) := by
  have hSlice :
      sinceLastOutcome (records ++ [.outcome outcome]) = [] :=
    sinceLastOutcome_append _ _
  have hBatch : newestBatch (records ++ [.outcome outcome]) = [] :=
    newestBatch_other rfl
  have hAsked :
      askedCalls (batchBase (records ++ [.outcome outcome])) =
        none := by
    rw [batchBase_other rfl, askedCalls_snoc]
    rfl
  have hWindows :
      sliceWindows (records ++ [.outcome outcome]) = .empty := by
    unfold sliceWindows
    rw [hSlice]
    rfl
  have hSteps :
      sliceSteps (records ++ [.outcome outcome]) = .empty := by
    unfold sliceSteps
    rw [hSlice]
    rfl
  constructor
  · rw [hWindows, hSteps]
    rfl
  · simp [hSteps, hBatch, SessionSteps.empty]
  · rw [hWindows]
    intro _
    rfl
  · rw [hWindows]
    intro window hMem
    cases hMem
  · rw [hWindows]
    intro _ action hAction
    cases hAction
  · intro hSome
    exact absurd hBatch hSome
  · intro calls hCalls
    rw [hAsked] at hCalls
    cases hCalls

/- A batch that is done leaves the open window whole. -/
theorem Attributed.opened
    (hAttributed : Attributed records)
    (hDone : BatchDone records)
    {action : AgentAction}
    (hAction : (sliceWindows records).action = some action) :
    IsWhole (action, (sliceWindows records).results) := by
  by_cases hNone : newestBatch records = []
  · exact hAttributed.whole hNone action hAction
  · rcases hDone with hEmpty | ⟨calls, hCalls, hLength⟩
    · exact absurd hEmpty hNone
    · obtain ⟨hAsked, _⟩ := hAttributed.asked calls hCalls
      rw [hAsked] at hAction
      obtain rfl := Option.some.inj hAction
      right
      refine ⟨calls, rfl, ?_⟩
      rw [← hAttributed.length hNone]
      exact hLength

/- Closing the open window of a batch that is done. -/
theorem Attributed.close
    (hAttributed : Attributed records)
    (hDone : BatchDone records)
    (next : Option AgentAction) :
    ((sliceWindows records).close next).action = next ∧
      ((sliceWindows records).close next).results = [] ∧
      (∀ window ∈ ((sliceWindows records).close next).closed,
        IsWhole window) ∧
      ((sliceWindows records).close next).closed.reverse.flatMap
          windowSteps =
        (sliceSteps records).newest := by
  rw [hAttributed.steps]
  unfold DecisionWindows.close DecisionWindows.openSteps
  cases hAction : (sliceWindows records).action with
  | none =>
      refine ⟨rfl, hAttributed.idle hAction, hAttributed.closed,
        ?_⟩
      rfl
  | some action =>
      refine ⟨rfl, rfl, ?_, ?_⟩
      · intro window hMem
        rcases List.mem_append.mp hMem with hOld | hLast
        · exact hAttributed.closed window hOld
        · rw [List.mem_singleton.mp hLast]
          exact hAttributed.opened hDone hAction
      · dsimp only
        rw [List.reverse_append, List.reverse_singleton,
          List.singleton_append, List.flatMap_cons]

theorem Attributed.quiet
    (hAttributed : Attributed records)
    (hDone : BatchDone records)
    (hAsks : record.asks = none) :
    Attributed (records ++ [record]) := by
  obtain ⟨hOpen, hOther, hWindows, hSteps⟩ := quiet_of_asks hAsks
  have hBatch := @newestBatch_other records record hOther
  constructor
  · rw [sliceWindows_snoc hOpen, sliceSteps_snoc hOpen, hWindows,
      hSteps]
    exact hAttributed.steps
  · rw [sliceSteps_snoc hOpen, hSteps, hBatch]
    simp
  · rw [sliceWindows_snoc hOpen, hWindows]
    exact hAttributed.idle
  · rw [sliceWindows_snoc hOpen, hWindows]
    exact hAttributed.closed
  · rw [sliceWindows_snoc hOpen, hWindows]
    intro _ action hAction
    exact hAttributed.opened hDone hAction
  · intro hSome
    exact absurd hBatch hSome
  · intro calls hCalls
    rw [batchBase_other hOther, askedCalls_snoc, hAsks] at hCalls
    rw [sliceWindows_snoc hOpen, hWindows]
    dsimp only at hCalls
    have hNone := newestBatch_of_asked hCalls
    rw [← batchBase_of_newestBatch hNone] at hCalls
    obtain ⟨hAction, hResults⟩ := hAttributed.asked calls hCalls
    exact ⟨hAction, fun _ => hResults hNone⟩

/- A decision or a deliberation closes the open window. -/
theorem Attributed.closing
    {next : Option AgentAction}
    (hAttributed : Attributed records)
    (hDone : BatchDone records)
    (hOpen : record.isOutcome = false)
    (hOther : record.isToolResult = false)
    (hWindows : DecisionWindows.addRecord (sliceWindows records)
      record = (sliceWindows records).close next)
    (hSteps : SessionSteps.addRecord (sliceSteps records) record =
      { newest := next.toList.map SessionStep.decided ++
          (sliceSteps records).newest
        recording := false })
    (hAsks : ∀ calls, askedCalls (records ++ [record]) =
      some calls → next = some (.callSkills calls)) :
    Attributed (records ++ [record]) := by
  have hBatch := @newestBatch_other records record hOther
  obtain ⟨hAction, hResults, hWhole, hClosed⟩ :=
    hAttributed.close hDone next
  constructor
  · rw [sliceWindows_snoc hOpen, sliceSteps_snoc hOpen, hWindows,
      hSteps, hClosed]
    unfold DecisionWindows.openSteps
    rw [hAction, hResults]
    cases next <;> rfl
  · rw [sliceSteps_snoc hOpen, hSteps, hBatch]
    simp
  · rw [sliceWindows_snoc hOpen, hWindows]
    exact fun _ => hResults
  · rw [sliceWindows_snoc hOpen, hWindows]
    exact hWhole
  · rw [sliceWindows_snoc hOpen, hWindows]
    intro _ action _
    left
    exact hResults
  · intro hSome
    exact absurd hBatch hSome
  · intro calls hCalls
    rw [batchBase_other hOther] at hCalls
    rw [sliceWindows_snoc hOpen, hWindows, hAction]
    exact ⟨hAsks calls hCalls, fun _ => hResults⟩

theorem Attributed.decision
    {decision : ModelDecisionRecord}
    (hAttributed : Attributed records)
    (hDone : BatchDone records) :
    Attributed (records ++ [.modelDecision decision]) := by
  apply @Attributed.closing records _ (some decision.action)
    hAttributed hDone rfl rfl rfl rfl
  intro calls hCalls
  rw [askedCalls_snoc] at hCalls
  obtain ⟨step, action⟩ := decision
  cases action <;> cases hCalls
  rfl

theorem Attributed.deliberation
    {deliberation : DeliberationRecord}
    (hAttributed : Attributed records)
    (hDone : BatchDone records) :
    Attributed (records ++ [.deliberation deliberation]) := by
  apply @Attributed.closing records _ none hAttributed hDone
    rfl rfl rfl rfl
  intro calls hCalls
  rw [askedCalls_snoc] at hCalls
  cases hCalls

/- One more result of the batch that the window asked for. -/
theorem Attributed.recorded
    {result : ToolResultRecord}
    {calls : List PlannedSkillCall}
    (hAttributed : Attributed records)
    (hAction :
      (sliceWindows records).action = some (.callSkills calls))
    (hResults : newestBatch records = [] →
      (sliceWindows records).results = []) :
    ((sliceSteps records).addRecord (.toolResult result)).newest =
      ((sliceWindows records).addRecord
          (.toolResult result)).openSteps ++
        ((sliceWindows records).addRecord
          (.toolResult result)).closed.reverse.flatMap
            windowSteps := by
  have hOld := hAttributed.steps
  dsimp only [SessionSteps.addRecord, DecisionWindows.addRecord]
  unfold DecisionWindows.openSteps at hOld ⊢
  rw [hAction] at hOld ⊢
  dsimp only at hOld ⊢
  by_cases hNone : newestBatch records = []
  · have hIdle : (sliceSteps records).recording ≠ true := by
      intro hRecording
      exact hAttributed.recording.mp hRecording hNone
    rw [if_neg hIdle, hOld, hResults hNone]
    rfl
  · have hSome : (sliceWindows records).results ≠ [] := by
      intro hEmpty
      have hLength := hAttributed.length hNone
      rw [hEmpty, List.length_nil] at hLength
      exact hNone (List.eq_nil_of_length_eq_zero hLength)
    rw [if_pos (hAttributed.recording.mpr hNone), hOld]
    unfold windowSteps
    rw [if_neg hSome, if_neg (by simp)]
    rfl

/- A result goes to the batch that has asked for it. -/
theorem Attributed.result
    {result : ToolResultRecord}
    (hAttributed : Attributed records)
    (hAsked : askedCalls (batchBase records) ≠ none) :
    Attributed (records ++ [.toolResult result]) := by
  obtain ⟨calls, hCalls⟩ := Option.ne_none_iff_exists'.mp hAsked
  obtain ⟨hAction, hResults⟩ := hAttributed.asked calls hCalls
  have hBatch := @newestBatch_result records result
  have hSome : newestBatch (records ++ [.toolResult result]) ≠
      [] := by
    rw [hBatch]
    simp
  have hWindows := @sliceWindows_snoc records
    (.toolResult result) rfl
  have hSteps := @sliceSteps_snoc records
    (.toolResult result) rfl
  constructor
  · rw [hSteps, hWindows]
    exact hAttributed.recorded hAction hResults
  · rw [hSteps]
    exact iff_of_true rfl hSome
  · rw [hWindows]
    intro hNone
    exact absurd (hAction.symm.trans hNone) (by simp)
  · rw [hWindows]
    exact hAttributed.closed
  · intro hNone
    exact absurd hNone hSome
  · intro _
    rw [hBatch, hWindows]
    dsimp only [DecisionWindows.addRecord]
    rw [List.length_append, List.length_append]
    by_cases hNone : newestBatch records = []
    · rw [hNone, hResults hNone]
      rfl
    · rw [hAttributed.length hNone]
      rfl
  · intro calls' hCalls'
    rw [batchBase_result, hCalls] at hCalls'
    obtain rfl := Option.some.inj hCalls'
    rw [hWindows]
    exact ⟨hAction, fun hNone => absurd hNone hSome⟩

/- A record in order keeps the results attributed. -/
theorem Attributed.snoc
    (hAttributed : Attributed records)
    (hBatched : Batched records record) :
    Attributed (records ++ [record]) := by
  cases hAsks : record.asks with
  | none =>
      obtain ⟨hOpen, hOther, _⟩ := quiet_of_asks hAsks
      exact hAttributed.quiet (hBatched.done hOther hOpen) hAsks
  | some asked =>
      cases record with
      | modelDecision decision => exact hAttributed.decision hBatched
      | deliberation _ => exact hAttributed.deliberation hBatched
      | toolResult result => exact hAttributed.result hBatched
      | outcome outcome => exact attributed_of_outcome
      | _ => cases hAsks

theorem attributed_nil : Attributed [] := by
  constructor
  · rfl
  · exact iff_of_false Bool.false_ne_true fun hSome => hSome rfl
  · intro _
    rfl
  · intro window hMem
    cases hMem
  · intro _ action hAction
    cases hAction
  · intro hSome
    exact absurd rfl hSome
  · intro calls hCalls
    cases hCalls

/-
  The kernel counts the failed batches in a row when no batch
  is in progress.
-/
theorem Attributed.count_eq
    (hAttributed : Attributed records)
    (hDone : BatchDone records) :
    currentConsecutiveToolFailureSteps records =
      failedBatchRun records := by
  obtain ⟨_, _, hWhole, hClosed⟩ := hAttributed.close hDone none
  unfold currentConsecutiveToolFailureSteps failedBatchRun
    DecisionWindows.ofRecords
  change _ = failedRun (sliceSteps records).newest
  rw [← hClosed, failedRun_flatMap]
  · rfl
  · intro window hMem
    exact hWhole window (List.mem_reverse.mp hMem)

end Attribution

------------------------------------------------------------
-- Runs
------------------------------------------------------------

/- Every record an advance asks to append is in order. -/
def Advance.Batches (t : Advance) : Prop :=
  ∀ s ∈ t.steps, ∀ record, s.op = .append record →
    Batched s.before.ledger record

section Runs

variable {M : Machine Op Answer World}
variable {t : Advance}
variable {run : List Advance}
variable {w w' : World}

theorem Advance.attributed
    (hHost : OnHost M)
    (hRuns : t.Runs M)
    (hBatches : t.Batches)
    (hBefore : Attributed t.before.ledger) :
    (∀ s ∈ t.steps, Attributed s.before.ledger) ∧
      Attributed t.after.ledger := by
  refine Exec.preserves (I := fun w => Attributed w.ledger)
    hRuns ?_ hBefore
  intro s hMem hKept _
  rw [hHost.next]
  rcases hostNext_ledger s.before s.op s.answer with
    hSame | ⟨record, hOp, hLedger⟩
  · rw [hSame]
    exact hKept
  · rw [hLedger]
    exact hKept.snoc (hBatches s hMem record hOp)

theorem Run.attributed
    (hHost : OnHost M)
    (hRun : Run M w run w')
    (hBatches : ∀ t ∈ run, t.Batches)
    (hInit : Attributed w.ledger) :
    (∀ t ∈ run, Attributed t.before.ledger) ∧
      Attributed w'.ledger :=
  hRun.preserves (I := fun w => Attributed w.ledger)
    (fun t hMem hRuns hKept =>
      (Advance.attributed hHost hRuns (hBatches t hMem) hKept).2)
    hInit

end Runs

end RainEngine
