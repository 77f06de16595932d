import RainEngine.Sessions.Breakers

/-
  This file proves that a circuit breaker is a latch in every
  session whose store can be loaded: once it is open on the
  ledger no later advance runs the skill, and it stays open.

  Key definitions include:
    * `Op.Invokes`
    * `OpenSince`
    * `StaysOpen`

  Key theorems include:
    * `Op.Judges.openSince`
    * `run_latches`
-/

namespace RainEngine

open Effects

/- The skill whose executor the request runs. -/
def Op.invokedSkill : Op → Option String
| .execute _ invocation => some invocation.manifest.name
| _ => none

abbrev Op.Invokes (skill : String) (op : Op) : Prop :=
  op.invokedSkill = some skill

/- The breaker is open on a ledger and on all that follow it. -/
def OpenSince
    (threshold : F64)
    (skill : String)
    (base records : List SessionRecord) :
    Prop :=
  base <+: records ∧
    ∀ middle, base <+: middle → middle <+: records →
      IsOpen threshold skill middle

section Steps

variable {M : Machine Op Answer World}
variable {threshold : F64}
variable {skill : String}
variable {base records : List SessionRecord}

theorem OpenSince.isOpen
    (hSince : OpenSince threshold skill base records) :
    IsOpen threshold skill records :=
  hSince.2 records hSince.1 (List.prefix_refl _)

theorem OpenSince.refl
    (hOpen : IsOpen threshold skill base) :
    OpenSince threshold skill base base := by
  refine ⟨List.prefix_refl _, ?_⟩
  intro middle hAfter hBefore
  rw [← hAfter.eq_of_length_le hBefore.length_le]
  exact hOpen

theorem OpenSince.snoc
    {record : SessionRecord}
    (hSince : OpenSince threshold skill base records)
    (hOpen : IsOpen threshold skill (records ++ [record])) :
    OpenSince threshold skill base (records ++ [record]) := by
  refine ⟨hSince.1.trans (List.prefix_append _ _), ?_⟩
  intro middle hAfter hBefore
  cases List.prefix_concat_iff.mp hBefore with
  | inl hWhole =>
      rw [hWhole]
      exact hOpen
  | inr hEarly => exact hSince.2 middle hAfter hEarly

theorem IsOpen.snoc_other
    {record : SessionRecord}
    (hOpen : IsOpen threshold skill records)
    (hOther : record.asToolResult = none) :
    IsOpen threshold skill (records ++ [record]) := by
  unfold IsOpen
  rw [skillResults_snoc_other hOther]
  exact hOpen

/- Only a success of the skill may close its breaker. -/
theorem IsOpen.snoc
    {record : SessionRecord}
    (hOpen : IsOpen threshold skill records)
    (hFailed : ∀ result, record = .toolResult result →
      result.skillName = skill → result.isOk = false) :
    IsOpen threshold skill (records ++ [record]) := by
  cases record with
  | toolResult result =>
      unfold IsOpen
      by_cases hSkill : result.skillName = skill
      · rw [skillResults_snoc_result hSkill]
        exact breakerTrips_snoc hOpen
          (hFailed result rfl hSkill)
      · rw [skillResults_snoc_foreign hSkill]
        exact hOpen
  | _ => exact hOpen.snoc_other rfl

/- A request in order leaves an open breaker open. -/
theorem Op.Judges.openSince
    {w : World}
    {op : Op}
    {a : Answer op}
    (hSince : OpenSince threshold skill base w.ledger)
    (hJudges : op.Judges threshold skill base w) :
    OpenSince threshold skill base
      (hostNext w op a).ledger := by
  cases hostNext_ledger w op a with
  | inl hSame =>
      rw [hSame]
      exact hSince
  | inr hAppend =>
      obtain ⟨record, hOp, hLedger⟩ := hAppend
      subst hOp
      rw [hLedger]
      apply hSince.snoc
      apply hSince.isOpen.snoc
      intro result hResult hSkill
      subst hResult
      by_contra hOk
      -- A success would be of a batch begun while closed.
      obtain ⟨hBase, hClosed⟩ :=
        hJudges hSkill (Bool.eq_true_of_not_eq_false hOk)
      exact hClosed
        (hSince.2 _ hBase batchBase_prefix_self)

theorem Op.Judges.not_invokes
    {w : World}
    {op : Op}
    (hOpen : IsOpen threshold skill w.ledger)
    (hJudges : op.Judges threshold skill base w) :
    ¬op.Invokes skill := by
  intro hInvokes
  cases op with
  | execute backend invocation =>
      exact hJudges (Option.some.inj hInvokes) hOpen
  | _ => cases hInvokes

/- The steps of an advance are in order for every skill. -/
theorem Advance.judges
    {t : Advance}
    (hHost : OnHost M)
    (hLoads : ∀ w, ¬LoadFails M w)
    (hThreshold :
      t.engine.breakerThreshold skill = threshold)
    (hRuns : t.Runs M) :
    ∀ s ∈ t.steps,
      s.op.Judges threshold skill t.before.ledger s.before :=
  (judging_advance hHost hLoads hThreshold).steps hRuns

/- The breaker stays open through the advances. -/
structure StaysOpen
    (threshold : F64)
    (skill : String)
    (run : List Advance)
    (w : World) : Prop where
  idle : ∀ t ∈ run, ∀ s ∈ t.steps, ¬s.op.Invokes skill
  during : ∀ t ∈ run, ∀ s ∈ t.steps,
    IsOpen threshold skill s.before.ledger
  after : IsOpen threshold skill w.ledger

theorem Advance.openSince
    {t : Advance}
    (hHost : OnHost M)
    (hLoads : ∀ w, ¬LoadFails M w)
    (hThreshold :
      t.engine.breakerThreshold skill = threshold)
    (hRuns : t.Runs M)
    (hOpen : IsOpen threshold skill t.before.ledger) :
    (∀ s ∈ t.steps,
      OpenSince threshold skill t.before.ledger
        s.before.ledger) ∧
      OpenSince threshold skill t.before.ledger
        t.after.ledger := by
  have hJudges := t.judges hHost hLoads hThreshold hRuns
  apply Exec.preserves
    (I := fun w =>
      OpenSince threshold skill t.before.ledger w.ledger)
    hRuns
  · intro s hMem hSince _
    rw [hHost.next]
    exact (hJudges s hMem).openSince hSince
  · exact OpenSince.refl hOpen

/- Advances of a session that starts with an open breaker. -/
theorem Run.staysOpen
    {run : List Advance}
    {w w' : World}
    (hHost : OnHost M)
    (hLoads : ∀ w, ¬LoadFails M w)
    (hRun : Run M w run w')
    (hThreshold : ∀ t ∈ run,
      t.engine.breakerThreshold skill = threshold)
    (hOpen : IsOpen threshold skill w.ledger) :
    StaysOpen threshold skill run w' := by
  induction hRun with
  | nil =>
      exact
        { idle := by simp
          during := by simp
          after := hOpen }
  | @cons t rest w' hAdvance hRest ih =>
      have hFirst := hThreshold t List.mem_cons_self
      have hJudges :=
        t.judges hHost hLoads hFirst hAdvance
      obtain ⟨hDuring, hAfter⟩ :=
        t.openSince hHost hLoads hFirst hAdvance hOpen
      have hLater := ih
        (fun s hMem =>
          hThreshold s (List.mem_cons_of_mem _ hMem))
        hAfter.isOpen
      constructor
      · intro s hMem
        cases List.mem_cons.mp hMem with
        | inl hHead =>
            subst hHead
            intro x hStep
            exact (hJudges x hStep).not_invokes
              (hDuring x hStep).isOpen
        | inr hTail => exact hLater.idle s hTail
      · intro s hMem
        cases List.mem_cons.mp hMem with
        | inl hHead =>
            subst hHead
            intro x hStep
            exact (hDuring x hStep).isOpen
        | inr hTail => exact hLater.during s hTail
      · exact hLater.after

end Steps

------------------------------------------------------------
-- The Latch
------------------------------------------------------------

/-
  In a session whose store can be loaded, an advance that
  starts with an open breaker and all advances after it run
  no executor of the skill, and the breaker stays open.
-/
theorem run_latches
    {threshold : F64}
    {skill : String}
    {early late : List Advance}
    {t : Advance}
    {w w' : World}
    (hRun : Run loading w (early ++ t :: late) w')
    (hThreshold : ∀ s ∈ early ++ t :: late,
      s.engine.breakerThreshold skill = threshold)
    (hOpen : IsOpen threshold skill t.before.ledger) :
    StaysOpen threshold skill (t :: late) w' := by
  obtain ⟨v, _, hLate⟩ := hRun.of_append
  have hFixed : ∀ s ∈ t :: late,
      s.engine.breakerThreshold skill = threshold := by
    intro s hMem
    exact hThreshold s (List.mem_append_right _ hMem)
  cases hLate with
  | cons hAdvance hRest =>
      exact Run.staysOpen .loading not_loadFails_loading
        (.cons hAdvance hRest) hFixed hOpen

namespace Sample

/- A run that calls failing skills first. -/
def failsFirst : Script :=
  { callsFirst
      [call "a" (.object []), call "b" (.object []),
        call "c" (.object [])] with
    skill := fun _ =>
      .returned (.error { kind := .trap, message := "trap" }) }

/- One advance that responds, and one whose calls all fail. -/
def failedTurns : List (Script × AdvanceRequest) :=
  [(responds, .trigger message), (failsFirst, .trigger message)]

def failedWorld : World :=
  Script.session engine failedTurns (World.empty "session")

/- An advance after the failures, with the given answers. -/
def advanceAfterFailures
    (answer : World → (op : Op) → Option (Answer op)) :
    Advance :=
  let ran := (advance engine (.trigger message)).run host
    answer failedWorld
  { engine := engine
    request := .trigger message
    before := failedWorld
    steps := ran.1
    after := ran.2.1
    result := ran.2.2 }

/- A provider that goes on calling the skill. -/
def callsOnceMore : Script :=
  callsFirst [call "d" (.object [])]

/- The same with a store whose ledger cannot be loaded. -/
def cannotLoad
    (w : World) :
    (op : Op) → Option (Answer op)
| .loadSession => some (.error ⟨"timeout"⟩)
| op => callsOnceMore.answer w op

theorem cannotLoad_allowed
    {w : World}
    {op : Op}
    {a : Answer op}
    (hAnswer : cannotLoad w op = some a) :
    host.allowed w op a := by
  unfold cannotLoad at hAnswer
  split at hAnswer
  · cases hAnswer
    trivial
  · exact (Script.answer_allowed hAnswer).1

theorem advanceAfterFailures_run
    {M : Machine Op Answer World}
    {answer : World → (op : Op) → Option (Answer op)}
    (hHost : OnHost M)
    (hReliable : ∀ w op a,
      reliable.allowed w op a → M.allowed w op a)
    (hAnswer : ∀ w op a,
      answer w op = some a → M.allowed w op a) :
    Run M (World.empty "session")
      (Script.advances engine failedTurns
        (World.empty "session") ++
          [advanceAfterFailures answer])
      (advanceAfterFailures answer).after := by
  have hFailed : Run M (World.empty "session")
      (Script.advances engine failedTurns
        (World.empty "session")) failedWorld :=
    (Script.session_run engine failedTurns _).mono
      (OnHost.reliable.next.trans hHost.next.symm) hReliable
  refine hFailed.append
    (Run.cons (t := advanceAfterFailures answer) ?_ .nil)
  exact Program.run_exec_of_next hHost.next.symm hAnswer _ _

theorem advanceAfterFailures_engine
    {answer : World → (op : Op) → Option (Answer op)} :
    ∀ s ∈ Script.advances engine failedTurns
        (World.empty "session") ++
          [advanceAfterFailures answer],
      s.engine.breakerThreshold "echo" = .finite (1 / 2) := by
  intro s hMem
  have hEngine : s.engine = engine := by
    cases List.mem_append.mp hMem with
    | inl hFailed =>
        exact Script.advances_engine s hFailed
    | inr hLast =>
        rw [List.mem_singleton.mp hLast]
        rfl
  rw [hEngine]
  rfl

theorem failedWorld_isOpen :
    IsOpen (.finite (1 / 2)) "echo" failedWorld.ledger := by
  decide +kernel

end Sample

/- After three failures the skill is not called again. -/
theorem failed_calls_latch :
    StaysOpen (.finite (1 / 2)) "echo"
      [Sample.advanceAfterFailures Sample.callsOnceMore.answer]
      (Sample.advanceAfterFailures
        Sample.callsOnceMore.answer).after :=
  run_latches
    (Sample.advanceAfterFailures_run .loading
      (fun _ _ _ => loading_of_reliable)
      (fun _ _ _ hAnswer =>
        loading_of_reliable (Script.answer_allowed hAnswer)))
    Sample.advanceAfterFailures_engine
    Sample.failedWorld_isOpen

/-
  While the ledger cannot be loaded an advance goes on with
  the projection of an earlier one, where the breaker is not
  open yet, and runs the skill.
-/
theorem unloaded_ledger_runs_broken_skill :
    ¬(∀ (threshold : F64) (skill : String)
      (early late : List Advance) (t : Advance)
      (w w' : World),
      Run host w (early ++ t :: late) w' →
        (∀ s ∈ early ++ t :: late,
          s.engine.breakerThreshold skill = threshold) →
          IsOpen threshold skill t.before.ledger →
            StaysOpen threshold skill (t :: late) w') := by
  intro hAll
  have hInvokes :
      ((Sample.advanceAfterFailures
        Sample.cannotLoad).steps.any fun s =>
          decide (s.op.Invokes "echo")) = true := by
    decide +kernel
  obtain ⟨s, hMem, hInvoked⟩ := List.any_eq_true.mp hInvokes
  have hStays := hAll _ "echo" _ [] _ _ _
    (Sample.advanceAfterFailures_run .host
      (fun _ _ _ hAllowed => hAllowed.1)
      (fun _ _ _ => Sample.cannotLoad_allowed))
    Sample.advanceAfterFailures_engine
    Sample.failedWorld_isOpen
  exact hStays.idle _ (List.mem_singleton_self _) s hMem
    (of_decide_eq_true hInvoked)

end RainEngine
