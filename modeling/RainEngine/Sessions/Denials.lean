import RainEngine.Sessions.Latches

/-
  This file asks whose failures a circuit breaker judges by.
  The results of a skill's own executions are counted along
  the steps of a session, and a denial follows from them alone
  if every result recorded for the skill in a batch that has
  begun with its breaker closed is that of an executed call.

  Key definitions include:
    * `invokedFor`
    * `ownResults`
    * `RecordsOwn`
    * `DeniesByOwn`
    * `Tracks`

  Key theorems include:
    * `Tracks.next`
    * `Tracks.exec`
    * `run_denies_by_own`
-/

namespace RainEngine

open Effects

------------------------------------------------------------
-- Own Results
------------------------------------------------------------

/- The result of a call of the skill that a step records. -/
def resultOf
    (skill : String)
    (s : Step Op Answer World) :
    Option ToolResultRecord :=
  ((storedBy s.op s.answer).bind
    SessionRecord.asToolResult).filter (·.skillName = skill)

/-
  The executor of the skill was invoked for the call in the
  batch whose results are being recorded: no result has been
  recorded since but those of this batch.
-/
def invokedFor
    (skill : String)
    (earlier : List (Step Op Answer World))
    (w : World)
    (callId : String) :
    Bool :=
  earlier.any fun x =>
    match x.op with
    | .execute _ invocation =>
        decide (invocation.manifest.name = skill) &&
          decide (invocation.callId = callId) &&
            decide
              ((toolResults x.before.ledger).length =
                (toolResults (batchBase w.ledger)).length)
    | _ => false

/- The result a step records, if its call was executed. -/
def ownResult
    (skill : String)
    (earlier : List (Step Op Answer World))
    (s : Step Op Answer World) :
    Option ToolResultRecord :=
  (resultOf skill s).filter
    fun result => invokedFor skill earlier s.before result.callId

/- The results of executed calls that later steps record. -/
def ownResults
    (skill : String) :
    List (Step Op Answer World) →
      List (Step Op Answer World) → List ToolResultRecord
| _, [] => []
| earlier, s :: later =>
    (ownResult skill earlier s).toList ++
      ownResults skill (earlier ++ [s]) later

def Advance.ownResults
    (skill : String)
    (t : Advance) :
    List ToolResultRecord :=
  RainEngine.ownResults skill [] t.steps

/- The step denies a call because of the skill's breaker. -/
def Op.Denies (skill : String) (op : Op) : Prop :=
  ∃ checkpoint,
    op = .append (.toolNodeCheckpoint checkpoint) ∧
      checkpoint.Denies skill

/-
  A call is denied only after at least three executed calls of
  the skill have recorded results, of which a share of at
  least the threshold are failures.
-/
def DeniesByOwn
    (threshold : F64)
    (skill : String)
    (run : List Advance) :
    Prop :=
  ∀ before t after, run = before ++ t :: after →
    ∀ earlier s later, t.steps = earlier ++ s :: later →
      s.op.Denies skill →
        breakerTrips threshold
          (before.flatMap (·.ownResults skill) ++
            ownResults skill [] earlier) = true

/-
  What a batch records for the skill that has begun with the
  breaker closed are results of executed calls.
-/
def RecordsOwn
    (threshold : F64)
    (skill : String) :
    List (Step Op Answer World) →
      List (Step Op Answer World) → Prop
| _, [] => True
| earlier, s :: later =>
    (∀ result ∈ resultOf skill s,
      ¬IsOpen threshold skill (batchBase s.before.ledger) →
        invokedFor skill earlier s.before result.callId =
          true) ∧
      RecordsOwn threshold skill (earlier ++ [s]) later

instance decidableRecordsOwn
    (threshold : F64)
    (skill : String) :
    (earlier steps : List (Step Op Answer World)) →
      Decidable (RecordsOwn threshold skill earlier steps)
| _, [] => .isTrue trivial
| earlier, s :: later =>
    let _ := decidableRecordsOwn threshold skill
      (earlier ++ [s]) later
    inferInstanceAs (Decidable ((∀ _, _) ∧ _))

------------------------------------------------------------
-- The Own Results Follow The Recorded Ones
------------------------------------------------------------

/-
  While the last batch has begun with the breaker closed, the
  results of executed calls are all there are; and once the
  breaker is open they alone keep it open.
-/
structure Tracks
    (threshold : F64)
    (skill : String)
    (records : List SessionRecord)
    (own : List ToolResultRecord) : Prop where
  closed :
    ¬IsOpen threshold skill (batchBase records) →
      own = skillResults skill records
  opened :
    IsOpen threshold skill (batchBase records) →
      breakerTrips threshold own = true ∧
        IsOpen threshold skill records

section Tracking

variable {M : Machine Op Answer World}
variable {threshold : F64}
variable {skill : String}
variable {base records : List SessionRecord}
variable {own : List ToolResultRecord}
variable {earlier : List (Step Op Answer World)}
variable {s : Step Op Answer World}

theorem tracks_nil :
    Tracks threshold skill [] [] where
  closed := fun _ => rfl
  opened := by
    intro hOpen
    cases hOpen

/- An open breaker is open for the executed calls alone. -/
theorem Tracks.trips
    (hTracks : Tracks threshold skill records own)
    (hOpen : IsOpen threshold skill records) :
    breakerTrips threshold own = true := by
  by_cases hBatch : IsOpen threshold skill (batchBase records)
  · exact (hTracks.opened hBatch).1
  · rw [hTracks.closed hBatch]
    exact hOpen

/- A record of another kind comes before a new batch. -/
theorem Tracks.other
    {record : SessionRecord}
    (hTracks : Tracks threshold skill records own)
    (hOther : record.asToolResult = none) :
    Tracks threshold skill (records ++ [record]) own := by
  have hBatch :
      batchBase (records ++ [record]) =
        records ++ [record] := by
    apply batchBase_other
    unfold SessionRecord.isToolResult
    rw [hOther]
    rfl
  have hResults := @skillResults_snoc_other skill records
    record hOther
  constructor
  · intro hClosed
    rw [hBatch] at hClosed
    unfold IsOpen at hClosed
    rw [hResults] at hClosed ⊢
    apply hTracks.closed
    intro hOpen
    exact hClosed (hTracks.opened hOpen).2
  · intro hOpen
    rw [hBatch] at hOpen
    refine ⟨hTracks.trips ?_, hOpen⟩
    unfold IsOpen at hOpen
    rw [hResults] at hOpen
    exact hOpen

theorem Tracks.foreign
    {result : ToolResultRecord}
    (hTracks : Tracks threshold skill records own)
    (hForeign : result.skillName ≠ skill) :
    Tracks threshold skill
      (records ++ [.toolResult result]) own := by
  have hResults := @skillResults_snoc_foreign skill result
    records hForeign
  constructor
  · intro hClosed
    rw [batchBase_result] at hClosed
    rw [hResults]
    exact hTracks.closed hClosed
  · intro hOpen
    rw [batchBase_result] at hOpen
    unfold IsOpen
    rw [hResults]
    exact hTracks.opened hOpen

/- A result of a batch that has begun while it was closed. -/
theorem Tracks.closedResult
    {result : ToolResultRecord}
    (hTracks : Tracks threshold skill records own)
    (hSkill : result.skillName = skill)
    (hClosed : ¬IsOpen threshold skill (batchBase records)) :
    Tracks threshold skill (records ++ [.toolResult result])
      (own ++ [result]) := by
  constructor
  · intro _
    rw [skillResults_snoc_result hSkill,
      hTracks.closed hClosed]
  · intro hOpen
    rw [batchBase_result] at hOpen
    exact absurd hOpen hClosed

/- Failures keep an open breaker open, executed or not. -/
theorem Tracks.openResult
    {result : ToolResultRecord}
    {more : List ToolResultRecord}
    (hTracks : Tracks threshold skill records own)
    (hSkill : result.skillName = skill)
    (hFailed : result.isOk = false)
    (hOpen : IsOpen threshold skill (batchBase records))
    (hMore : more = [] ∨ more = [result]) :
    Tracks threshold skill (records ++ [.toolResult result])
      (own ++ more) := by
  obtain ⟨hTrips, hRecords⟩ := hTracks.opened hOpen
  constructor
  · intro hClosed
    rw [batchBase_result] at hClosed
    exact absurd hOpen hClosed
  · intro _
    constructor
    · cases hMore with
      | inl hNone =>
          rw [hNone, List.append_nil]
          exact hTrips
      | inr hOwn =>
          rw [hOwn]
          exact breakerTrips_snoc hTrips hFailed
    · unfold IsOpen
      rw [skillResults_snoc_result hSkill]
      exact breakerTrips_snoc hRecords hFailed

theorem storedBy_eq_some
    {op : Op}
    {a : Answer op}
    {record : SessionRecord}
    (hStored : storedBy op a = some record) :
    op = .append record := by
  unfold storedBy at hStored
  split at hStored
  · cases hStored
    rfl
  · cases hStored

theorem asToolResult_eq_some
    {record : SessionRecord}
    {result : ToolResultRecord}
    (hResult : record.asToolResult = some result) :
    record = .toolResult result := by
  cases record <;> cases hResult
  rfl

/- One step of an advance keeps track of the own results. -/
theorem Tracks.next
    (hTracks : Tracks threshold skill s.before.ledger own)
    (hJudges :
      s.op.Judges threshold skill base s.before)
    (hOwn : ∀ result ∈ resultOf skill s,
      ¬IsOpen threshold skill (batchBase s.before.ledger) →
        invokedFor skill earlier s.before result.callId =
          true) :
    Tracks threshold skill
      (hostNext s.before s.op s.answer).ledger
      (own ++ (ownResult skill earlier s).toList) := by
  rw [hostNext_stored]
  cases hStored : storedBy s.op s.answer with
  | none =>
      have hNone : ownResult skill earlier s = none := by
        simp [ownResult, resultOf, hStored]
      simpa [hNone] using hTracks
  | some record =>
      cases hKind : record.asToolResult with
      | none =>
          have hNone : ownResult skill earlier s = none := by
            simp [ownResult, resultOf, hStored, hKind]
          simpa [hNone] using hTracks.other hKind
      | some result =>
          have hRecord := asToolResult_eq_some hKind
          subst hRecord
          by_cases hSkill : result.skillName = skill
          · have hResult : resultOf skill s = some result := by
              simp [resultOf, hStored, hKind, hSkill]
            by_cases hOpen : IsOpen threshold skill
                (batchBase s.before.ledger)
            · have hFailed : result.isOk = false := by
                by_contra hOk
                rw [storedBy_eq_some hStored] at hJudges
                exact (hJudges hSkill
                  (Bool.eq_true_of_not_eq_false hOk)).2 hOpen
              apply hTracks.openResult hSkill hFailed hOpen
              unfold ownResult
              rw [hResult]
              by_cases hInvoked : invokedFor skill earlier
                  s.before result.callId = true
              · right
                simp [hInvoked]
              · left
                simp [hInvoked]
            · have hInvoked := hOwn result hResult hOpen
              have hSelf : ownResult skill earlier s =
                  some result := by
                simp [ownResult, hResult, hInvoked]
              rw [hSelf]
              exact hTracks.closedResult hSkill hOpen
          · have hNone : ownResult skill earlier s = none := by
              simp [ownResult, resultOf, hStored, hKind,
                hSkill]
            simpa [hNone] using hTracks.foreign hSkill

/- Without a further step nothing is recorded. -/
theorem Tracks.stop
    (hTracks : Tracks threshold skill records own) :
    (∀ middle s later,
      ([] : List (Step Op Answer World)) =
          middle ++ s :: later →
        Tracks threshold skill s.before.ledger
          (own ++ ownResults skill earlier middle)) ∧
      Tracks threshold skill records
        (own ++ ownResults skill earlier []) := by
  refine ⟨by simp, ?_⟩
  rw [ownResults, List.append_nil]
  exact hTracks

/- Every step of an advance does, and so does its end. -/
theorem Tracks.exec
    {ε α : Type}
    {p : Program Op Answer ε α}
    {w w' : World}
    {steps : List (Step Op Answer World)}
    {r : Option (Except ε α)}
    (hHost : OnHost M)
    (hExec : Exec M w p steps w' r)
    (hJudges : ∀ s ∈ steps,
      s.op.Judges threshold skill base s.before)
    (hOwn : RecordsOwn threshold skill earlier steps)
    (hTracks : Tracks threshold skill w.ledger own) :
    (∀ middle s later, steps = middle ++ s :: later →
      Tracks threshold skill s.before.ledger
        (own ++ ownResults skill earlier middle)) ∧
      Tracks threshold skill w'.ledger
        (own ++ ownResults skill earlier steps) := by
  induction hExec generalizing earlier own with
  | stop => exact hTracks.stop
  | pure => exact hTracks.stop
  | throw => exact hTracks.stop
  | @request w w' op k a steps r hAllowed hRest ih =>
      have hFirst :
          Tracks threshold skill (M.next w op a).ledger
            (own ++ (ownResult skill earlier
              ⟨w, op, a⟩).toList) := by
        rw [hHost.next]
        apply Tracks.next hTracks
          (hJudges _ List.mem_cons_self) hOwn.1
      obtain ⟨hSteps, hEnd⟩ := ih
        (fun s hMem => hJudges s (List.mem_cons_of_mem _ hMem))
        hOwn.2 hFirst
      constructor
      · intro middle s later hSplit
        cases middle with
        | nil =>
            cases hSplit
            rw [ownResults, List.append_nil]
            exact hTracks
        | cons first middle =>
            rw [List.cons_append, List.cons.injEq] at hSplit
            rw [← hSplit.1, ownResults, ← List.append_assoc]
            exact hSteps middle s later hSplit.2
      · rw [ownResults, ← List.append_assoc]
        exact hEnd

/- Along a run the own results are those of its advances. -/
theorem Tracks.run
    {run : List Advance}
    {w w' : World}
    (hHost : OnHost M)
    (hLoads : ∀ w, ¬LoadFails M w)
    (hRun : Run M w run w')
    (hThreshold : ∀ t ∈ run,
      t.engine.breakerThreshold skill = threshold)
    (hOwn : ∀ t ∈ run,
      RecordsOwn threshold skill [] t.steps)
    (hTracks : Tracks threshold skill w.ledger own) :
    ∀ before t after, run = before ++ t :: after →
      t.Runs M ∧
        Tracks threshold skill t.before.ledger
          (own ++ before.flatMap (·.ownResults skill)) := by
  induction hRun generalizing own with
  | nil =>
      intro before t after hSplit
      simp at hSplit
  | @cons first rest w' hAdvance hRest ih =>
      intro before t after hSplit
      have hFirst := hThreshold first List.mem_cons_self
      have hEnd := (hTracks.exec hHost hAdvance
        (first.judges hHost hLoads hFirst hAdvance)
        (hOwn first List.mem_cons_self)).2
      cases before with
      | nil =>
          cases hSplit
          rw [List.flatMap_nil, List.append_nil]
          exact ⟨hAdvance, hTracks⟩
      | cons other before =>
          rw [List.cons_append, List.cons.injEq] at hSplit
          rw [← hSplit.1, List.flatMap_cons,
            ← List.append_assoc]
          exact ih
            (fun s hMem =>
              hThreshold s (List.mem_cons_of_mem _ hMem))
            (fun s hMem =>
              hOwn s (List.mem_cons_of_mem _ hMem))
            hEnd before t after hSplit.2

end Tracking

------------------------------------------------------------
-- Denials
------------------------------------------------------------

/-
  In a session whose store can be loaded and in which results
  recorded for the skill by batches that have begun with its
  breaker closed are those of executed calls, the breaker
  denies a call only because of executed calls.
-/
theorem run_denies_by_own
    {threshold : F64}
    {skill sessionId : String}
    {run : List Advance}
    {w : World}
    (hRun : Run loading (World.empty sessionId) run w)
    (hThreshold : ∀ t ∈ run,
      t.engine.breakerThreshold skill = threshold)
    (hOwn : ∀ t ∈ run,
      RecordsOwn threshold skill [] t.steps) :
    DeniesByOwn threshold skill run := by
  intro before t after hRunSplit earlier s later hSplit hDenies
  obtain ⟨hAdvance, hTracks⟩ :=
    Tracks.run .loading not_loadFails_loading hRun hThreshold
      hOwn tracks_nil before t after hRunSplit
  have hMem : t ∈ run := by
    rw [hRunSplit]
    simp
  have hJudges := t.judges .loading not_loadFails_loading
    (hThreshold t hMem) hAdvance
  have hStep := (hTracks.exec .loading hAdvance hJudges
    (hOwn t hMem)).1 earlier s later hSplit
  obtain ⟨checkpoint, hOp, hDenied⟩ := hDenies
  have hStepMem : s ∈ t.steps := by
    rw [hSplit]
    simp
  have hJudged := hJudges s hStepMem
  rw [hOp] at hJudged
  rw [List.nil_append] at hStep
  exact hStep.trips (hJudged hDenied)

/- Further steps only add to the results. -/
theorem ownResults_append
    {skill : String}
    (earlier middle later : List (Step Op Answer World)) :
    ownResults skill earlier (middle ++ later) =
      ownResults skill earlier middle ++
        ownResults skill (earlier ++ middle) later := by
  induction middle generalizing earlier with
  | nil => simp [ownResults]
  | cons s middle ih =>
      rw [List.cons_append, ownResults, ownResults, ih]
      simp

namespace Sample

/- A provider that never stops calling the skill. -/
def insists : Script where
  decision _ :=
    { action := .callSkills [call "d" (.object [])] }
  skill _ := .returned (.ok .null)

/- The calls of the skill fail, and it is called again. -/
def failedRun : List Advance :=
  Script.advances engine
    (failedTurns ++ [(insists, .trigger message)])
    (World.empty "session")

/- An engine whose skill is for those with a scope. -/
def scopedEngine : AgentEngine :=
  { engine with
    skills :=
      { entries :=
          [⟨{ manifest "echo" with
                requiredScopes := ["net"] }, .wasm "wasm"⟩]
        nodup := by decide } }

/- Three calls without the scope, and then one with it. -/
def unscopedRun : List Advance :=
  Script.advances scopedEngine
    [(failsFirst, .trigger message),
      (insists,
        .trigger { message with grantedScopes := ["net"] })]
    (World.empty "session")

def deniesSkill (skill : String) : Op → Bool
| .append (.toolNodeCheckpoint checkpoint) =>
    decide (checkpoint.skillName = skill) &&
      decide (checkpoint.status = .failed) &&
        decide (checkpoint.attempt = 0) &&
          decide (checkpoint.detail =
            some (breakerMessage skill))
| _ => false

theorem denies_of_deniesSkill
    {skill : String}
    {op : Op}
    (hDenies : deniesSkill skill op = true) :
    op.Denies skill := by
  unfold deniesSkill at hDenies
  split at hDenies
  · simp only [Bool.and_eq_true, decide_eq_true_eq]
      at hDenies
    obtain ⟨⟨⟨hName, hStatus⟩, hAttempt⟩, hDetail⟩ := hDenies
    exact ⟨_, rfl, hName, hStatus, hAttempt, hDetail⟩
  · cases hDenies

end Sample

/- The fourth call is denied because three calls failed. -/
theorem failed_calls_deny :
    DeniesByOwn (.finite (1 / 2)) "echo" Sample.failedRun :=
  run_denies_by_own
    (Script.session_run Sample.engine _
      (World.empty "session")).loads
    (by
      intro t hMem
      rw [Script.advances_engine t hMem]
      rfl)
    (by decide +kernel)

/-
  Calls without their scope never reach the executor, and yet
  the first call with it is denied because they have failed.
-/
theorem unscoped_calls_deny :
    ¬(∀ (threshold : F64) (skill sessionId : String)
      (run : List Advance) (w : World),
      Run reliable (World.empty sessionId) run w →
        (∀ t ∈ run,
          t.engine.breakerThreshold skill = threshold) →
          DeniesByOwn threshold skill run) := by
  intro hAll
  have hDenied := hAll (.finite (1 / 2)) "echo" "session"
    Sample.unscopedRun _
    (Script.session_run Sample.scopedEngine _ _)
    (by
      intro t hMem
      rw [Script.advances_engine t hMem]
      rfl)
  have hOwn :
      Sample.unscopedRun.all
        (fun t => (t.ownResults "echo").isEmpty) = true := by
    decide +kernel
  have hSome :
      Sample.unscopedRun.any (fun t =>
        t.steps.any fun s =>
          Sample.deniesSkill "echo" s.op) = true := by
    decide +kernel
  obtain ⟨t, hMem, hSteps⟩ := List.any_eq_true.mp hSome
  obtain ⟨s, hStep, hDenies⟩ := List.any_eq_true.mp hSteps
  obtain ⟨before, after, hRun⟩ := List.append_of_mem hMem
  obtain ⟨earlier, later, hSplit⟩ := List.append_of_mem hStep
  have hTrips := hDenied before t after hRun earlier s later
    hSplit (Sample.denies_of_deniesSkill hDenies)
  have hNone : ∀ x ∈ Sample.unscopedRun,
      x.ownResults "echo" = [] := by
    intro x hx
    exact List.isEmpty_iff.mp (List.all_eq_true.mp hOwn x hx)
  have hBefore :
      before.flatMap (·.ownResults "echo") = [] := by
    rw [List.flatMap_eq_nil_iff]
    intro x hx
    apply hNone
    rw [hRun]
    exact List.mem_append_left _ hx
  have hEarlier : ownResults "echo" [] earlier = [] := by
    have hSelf := hNone t hMem
    unfold Advance.ownResults at hSelf
    rw [hSplit, ownResults_append] at hSelf
    exact (List.append_eq_nil_iff.mp hSelf).1
  rw [hBefore, hEarlier] at hTrips
  cases hTrips

end RainEngine
