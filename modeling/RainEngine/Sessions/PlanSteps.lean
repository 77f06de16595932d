import RainEngine.Advances.Courses
import RainEngine.Advances.Sequels
import RainEngine.Sessions.Plans

/-
  This file is about the steps of plans that the advances of a
  session execute. The version that completes a plan leaves
  the version before it active, so the last step is executed
  again by every later advance; every other step is executed
  once, and in its turn.

  Key definitions include:
    * `requestsOf`
    * `Executed`
    * `PlansOnce`
    * `LastStepTaken`

  Key theorems include:
    * `Run.taken`
    * `Executed.version`
    * `run_plans_once_iff`
    * `last_step_repeated`
-/

namespace RainEngine

open Effects

------------------------------------------------------------
-- Executed Steps
------------------------------------------------------------

/- The requests of a run, one advance after the other. -/
def requestsOf
    (run : List Advance) :
    List (Step Op Answer World) :=
  run.flatMap Advance.steps

/-
  A step of a plan is executed in a run: at some place of its
  requests the next version of the plan, which is due in the
  ledger, is appended, and from there on the advance executes
  the action of that step.
-/
inductive Executed
    (run : List Advance)
    (place : Nat)
    (planId : String)
    (index : Nat) : Prop where
  | intro
      {past rest : List Advance}
      {t : Advance}
      {early late : List (Step Op Answer World)}
      {s : Step Op Answer World}
      {plan : ExecutionPlanRecord}
      {action : AgentAction}
      {context : AgentContext}
      {stepsExecuted : Nat}
      {emittedEvents : List KernelEventRecord}
      (hRun : run = past ++ t :: rest)
      (hSteps : t.steps = early ++ s :: late)
      (hPlace :
        place = (requestsOf past).length + early.length)
      (hId : plan.planId = planId)
      (hIndex : plan.currentStepIndex = index)
      (hDue :
        duePlanStep s.before.ledger = some (plan, action))
      (hOp : s.op = .append (.executionPlan plan.next))
      (hAction :
        Exec reliable (hostNext s.before s.op s.answer)
          (executeAction t.engine context action stepsExecuted
            emittedEvents) late t.after t.result) :
      Executed run place planId index

/-
  Every step of a plan is executed once, after the steps
  before it, and in every ledger reached the versions of the
  plans count their steps and no completed plan is active.
-/
structure PlansOnce
    (run : List Advance)
    (w : World) : Prop where
  once : ∀ {planId index place place'},
    Executed run place planId index →
      Executed run place' planId index → place = place'
  inOrder : ∀ {planId i j place},
    Executed run place planId j → i < j →
      ∃ place' < place, Executed run place' planId i
  versions : ∀ ledger, ledger <+: w.ledger →
    VersionsOnce ledger

/- The request takes the last step of the active plan. -/
def LastStepTaken (s : Step Op Answer World) : Prop :=
  ∃ plan action,
    duePlanStep s.before.ledger = some (plan, action) ∧
      plan.steps.length = plan.currentStepIndex + 1 ∧
      s.op = .append (.executionPlan plan.next)

------------------------------------------------------------
-- Steps That Are Taken
------------------------------------------------------------

section Taken

variable {M : Machine Op Answer World}
variable {engine : AgentEngine}
variable {start w w' : World}
variable {steps early late : List (Step Op Answer World)}
variable {s : Step Op Answer World}
variable {r : Option (Except EngineError AdvanceResult)}

/- An element of a kind of its own stands at one place. -/
theorem append_cons_unique
    {α : Type}
    (kind : α → Prop)
    {xs ys before after : List α}
    {x y : α}
    (hBefore : ∀ z ∈ xs, ¬kind z)
    (hAfter : ∀ z ∈ ys, ¬kind z)
    (hKind : kind y)
    (hSame : xs ++ x :: ys = before ++ y :: after) :
    xs = before ∧ x = y ∧ ys = after := by
  induction xs generalizing before with
  | nil =>
      cases before with
      | nil =>
          rw [List.nil_append, List.nil_append,
            List.cons.injEq] at hSame
          exact ⟨rfl, hSame.1, hSame.2⟩
      | cons z before =>
          rw [List.nil_append, List.cons_append,
            List.cons.injEq] at hSame
          exact absurd hKind (hAfter y (by simp [hSame.2]))
  | cons z xs ih =>
      cases before with
      | nil =>
          rw [List.cons_append, List.nil_append,
            List.cons.injEq] at hSame
          rw [← hSame.1] at hKind
          exact absurd hKind (hBefore z (by simp))
      | cons z' before =>
          rw [List.cons_append, List.cons_append,
            List.cons.injEq] at hSame
          rcases ih (fun z hMem => hBefore z (by simp [hMem]))
            hSame.2 with ⟨hXs, hRest⟩
          exact ⟨by rw [hSame.1, hXs], hRest⟩

theorem Op.Idles.not_takes
    {op : Op}
    (hIdles : op.Idles) :
    ¬op.TakesPlanStep := by
  intro hTakes
  cases op with
  | append record =>
      cases record with
      | executionPlan version => exact hTakes hIdles
      | _ => exact hTakes
  | _ => exact hTakes

theorem Op.Follows.not_takes
    {op : Op}
    (hFollows : op.Follows) :
    ¬op.TakesPlanStep := by
  intro hTakes
  cases op with
  | append record =>
      cases record with
      | executionPlan version => exact hFollows
      | _ => exact hTakes
  | _ => exact hTakes

/- What is of no such kind comes before. -/
theorem append_split_after
    {α : Type}
    (kind : α → Prop)
    {xs ys before after : List α}
    {y : α}
    (hBefore : ∀ z ∈ xs, ¬kind z)
    (hKind : kind y)
    (hSame : xs ++ ys = before ++ y :: after) :
    ∃ more, before = xs ++ more ∧ ys = more ++ y :: after := by
  rcases List.append_eq_append_iff.mp hSame with
    ⟨more, hMore, hRest⟩ | ⟨more, hMore, hRest⟩
  · exact ⟨more, hMore, hRest⟩
  · cases more with
    | nil =>
        rw [List.append_nil] at hMore
        rw [List.nil_append] at hRest
        exact ⟨[], by rw [hMore, List.append_nil], hRest.symm⟩
    | cons z more =>
        rw [List.cons_append, List.cons.injEq] at hRest
        have hMem : y ∈ xs := by
          rw [hMore, hRest.1]
          simp
        exact absurd hKind (hBefore y hMem)

theorem Op.Deliberates.not_takes
    {op : Op}
    (hQuiet : op.Deliberates) :
    ¬op.TakesPlanStep := by
  rcases hQuiet with hIdles | hDecision
  · exact hIdles.not_takes
  · intro hTakes
    cases op <;> first | exact hTakes | cases hDecision

/- The request takes a step of a plan. -/
abbrev ReachesStep (s : Step Op Answer World) : Prop :=
  s.op.TakesPlanStep

/- In a step it is taken where the action starts. -/
theorem Acted.taken
    {context : AgentContext}
    {stepsExecuted : Nat}
    {v : World}
    (hActed :
      Acted M engine start stepsExecuted context v steps w' r)
    (hSteps : steps = early ++ s :: late)
    (hTakes : s.op.TakesPlanStep) :
    ∃ plan action emittedEvents,
      duePlanStep context.records = some (plan, action) ∧
        s.op = .append (.executionPlan plan.next) ∧
        Exec M (hostNext s.before s.op s.answer)
          (executeAction engine context action stepsExecuted
            emittedEvents) late w' r := by
  have hMem : s ∈ steps := by
    rw [hSteps]
    exact List.mem_append_right _ List.mem_cons_self
  cases hActed with
  | @due plan action later _ _ answer emittedEvents hDue
      hAction =>
      have hLater : ∀ z ∈ later, ¬z.op.TakesPlanStep :=
        fun z hZ => ((follows_executeAction.exec
          hAction).1 z hZ).not_takes
      have hFirst : ∀ z ∈ [], ¬ReachesStep z := by simp
      rcases append_cons_unique ReachesStep hFirst
        hLater hTakes hSteps with ⟨_, hAt, hRest⟩
      rw [← hAt, ← hRest]
      exact ⟨plan, action, emittedEvents, hDue, rfl, hAction⟩
  | ended hQuiet =>
      exact absurd hTakes (hQuiet s hMem).not_takes
  | @decided early later u _ _ timeoutMs request decision
      hIdle _ _ hCarried =>
      exfalso
      rcases List.mem_append.mp hMem with hEarly | hLate
      · exact (hIdle s hEarly).not_takes hTakes
      rcases List.mem_cons.mp hLate with hAsk | hLater
      · rw [hAsk] at hTakes
        exact hTakes
      cases hCarried with
      | ended hRest => exact (hRest s hLater).not_takes hTakes
      | @reached between after _ _ _ _ _ hBetween _ _
          hAction =>
          rcases List.mem_append.mp hLater with hFirst | hLast
          · exact (hBetween s hFirst).not_takes hTakes
          · exact ((follows_executeAction.exec
              hAction).1 s hLast).not_takes hTakes

/- The action of a step that an advance takes. -/
structure TakenAs
    (M : Machine Op Answer World)
    (engine : AgentEngine)
    (s : Step Op Answer World)
    (late : List (Step Op Answer World))
    (w' : World)
    (r : Option (Except EngineError AdvanceResult))
    (plan : ExecutionPlanRecord)
    (action : AgentAction) : Prop where
  current :
    plan.steps[plan.currentStepIndex]? = some action
  op : s.op = .append (.executionPlan plan.next)
  executes : ∃ context stepsExecuted emittedEvents,
    Exec M (hostNext s.before s.op s.answer)
      (executeAction engine context action stepsExecuted
        emittedEvents) late w' r

theorem Stepped.taken
    {v : World}
    (hHost : OnHost M)
    (hStepped : Stepped M engine start v steps w' r)
    (hSteps : steps = early ++ s :: late)
    (hTakes : s.op.TakesPlanStep) :
    ∃ plan action, TakenAs M engine s late w' r plan action := by
  cases hStepped with
  | idle hIdle =>
      have hMem : s ∈ steps := by
        rw [hSteps]
        exact List.mem_append_right _ List.mem_cons_self
      exact absurd hTakes (hIdle s hMem).not_takes
  | took hIdle _ hSees hStep =>
      rcases append_split_after ReachesStep
        (fun z hZ => (hIdle z hZ).not_takes) hTakes hSteps with
        ⟨more, _, hLast⟩
      have hActed := acted_performSingleStep hHost hSees _ w' r
        hStep
      rcases hActed.taken hLast hTakes with
        ⟨plan, action, emittedEvents, hDue, hOp, hAction⟩
      exact ⟨plan, action, (duePlanStep_recorded hDue).2, hOp,
        _, _, emittedEvents, hAction⟩

/- In an advance, where its step starts. -/
theorem advance_taken
    {request : AdvanceRequest}
    (hHost : OnHost M)
    (hExec : Exec M start (advance engine request) steps w' r)
    (hSteps : steps = early ++ s :: late)
    (hTakes : s.op.TakesPlanStep) :
    ∃ plan action, TakenAs M engine s late w' r plan action := by
  cases advance_course hHost hExec with
  | direct hStepped => exact hStepped.taken hHost hSteps hTakes
  | @resumed opening batch rest _ _ _ _ _ _ _ _ hIdle _ _ _
      hBatch hRest =>
      have hBefore : ∀ z ∈ opening ++ batch,
          ¬z.op.TakesPlanStep := by
        intro z hZ
        rcases List.mem_append.mp hZ with hEarly | hLate
        · exact (hIdle z hEarly).not_takes
        · exact ((uses_batch.exec hBatch).1 z
            hLate).follows.not_takes
      rcases append_split_after ReachesStep hBefore
        hTakes hSteps with ⟨more, _, hLast⟩
      exact hRest.taken hHost hLast hTakes

end Taken

------------------------------------------------------------
-- Runs With Plans
------------------------------------------------------------

section Runs

variable {t : Advance}
variable {run : List Advance}
variable {start w w' : World}
variable {before after : List (Step Op Answer World)}
variable {s : Step Op Answer World}

/- Every version an advance appends follows its ledger. -/
theorem Advance.plansFollow
    (hRuns : t.Runs reliable)
    (hIssued : PlansIssued t.before) :
    (∀ s ∈ t.steps, PlansFollow s.before s.op) ∧
      PlansIssued t.after := by
  have hSafe : Ends reliable planning
      (advance t.engine t.request) t.before :=
    planning_advance hIssued
  refine ⟨Safe.steps hSafe hRuns, ?_⟩
  exact Safe.last (I := PlansIssued) (fun _ _ h => h.1)
    (fun _ _ h => h) (fun _ _ h => h) hSafe hRuns

/- An advance that takes no last step keeps plans in order. -/
theorem Advance.steady
    (hRuns : t.Runs reliable)
    (hIssued : PlansIssued t.before)
    (hMore : ∀ s ∈ t.steps, ¬LastStepTaken s)
    (hSteady : Steady t.before.ledger) :
    Steady t.after.ledger := by
  refine (Exec.preserves (I := fun w => Steady w.ledger) hRuns
    ?_ hSteady).2
  intro s hMem hKept _
  have hFollow := (t.plansFollow hRuns hIssued).1 s hMem
  change Steady (hostNext s.before s.op s.answer).ledger
  rcases hostNext_ledger s.before s.op s.answer with
    hSame | ⟨record, hOp, hLedger⟩
  · rw [hSame]
    exact hKept
  · rw [hLedger]
    cases hPlan : record.asExecutionPlan with
    | none => exact hKept.snoc_other hPlan
    | some plan =>
        rw [asExecutionPlan_eq_some] at hPlan
        rw [hPlan] at hOp ⊢
        cases hFollow.2 plan hOp with
        | proposed hFresh hIndex hOpen =>
            exact hKept.proposed hFresh hIndex hOpen
        | @taken plan action hDue =>
            apply hKept.taken hDue
            intro hLast
            exact hMore s hMem ⟨plan, action, hDue, hLast, hOp⟩

/- The ledger after an append is a part of the last one. -/
theorem exec_append_prefix
    {α : Type}
    {p : EngineM α}
    {steps : List (Step Op Answer World)}
    {r : Option (Except EngineError α)}
    {s : Step Op Answer World}
    {record : SessionRecord}
    (hExec : Exec reliable w p steps w' r)
    (hMem : s ∈ steps)
    (hOp : s.op = .append record) :
    s.before.ledger ++ [record] <+: w'.ledger := by
  induction hExec with
  | stop => cases hMem
  | pure => cases hMem
  | throw => cases hMem
  | @request w w' op k a steps r hAllowed hRest ih =>
      rcases List.mem_cons.mp hMem with hHead | hTail
      · subst hHead
        dsimp only at hOp ⊢
        subst hOp
        have hOk : a = .ok () := hAllowed.2
        subst hOk
        rw [exec_ledger rfl hRest]
        exact List.prefix_append _ _
      · exact ih hTail

/- Every advance of a run leaves a part of the last ledger. -/
theorem Run.after_prefix
    (hRun : Run reliable w run w')
    (hMem : t ∈ run) :
    t.after.ledger <+: w'.ledger := by
  have hGrows : ∀ {w run w'}, Run reliable w run w' →
      w.ledger <+: w'.ledger := by
    intro w run w' hRun
    refine (hRun.preserves
      (I := fun w' => w.ledger <+: w'.ledger) ?_
      (List.prefix_refl _)).2
    intro t _ hRuns hBefore
    rw [Advance.ledger_eq .reliable hRuns]
    exact hBefore.trans (List.prefix_append _ _)
  induction hRun with
  | nil => cases hMem
  | cons hAdvance hRest ih =>
      rcases List.mem_cons.mp hMem with hHead | hTail
      · rw [hHead]
        exact hGrows hRest
      · exact ih hTail

theorem Run.ledger_eq
    (hRun : Run reliable w run w') :
    w'.ledger = w.ledger ++ storedIn (requestsOf run) := by
  induction hRun with
  | nil => exact (List.append_nil _).symm
  | @cons t rest w' hAdvance hRest ih =>
      rw [ih, exec_ledger rfl hAdvance, List.append_assoc,
        ← storedIn_append]
      rfl

/- A place in a run is one in one of its advances. -/
theorem requestsOf_split
    (hRequests : requestsOf run = before ++ s :: after) :
    ∃ past t rest early late, run = past ++ t :: rest ∧
      t.steps = early ++ s :: late ∧
      before = requestsOf past ++ early ∧
      after = late ++ requestsOf rest := by
  induction run generalizing before with
  | nil => cases before <;> cases hRequests
  | cons t run ih =>
      have hSame : t.steps ++ requestsOf run =
          before ++ s :: after := hRequests
      rcases List.append_eq_append_iff.mp hSame with
        ⟨more, hMore, hRest⟩ | ⟨more, hMore, hRest⟩
      · rcases ih hRest with
          ⟨past, u, rest, early, late, hRun, hSteps, hBefore,
            hAfter⟩
        refine ⟨t :: past, u, rest, early, late, ?_, hSteps,
          ?_, hAfter⟩
        · rw [hRun, List.cons_append]
        · rw [hMore, hBefore, ← List.append_assoc]
          rfl
      · cases more with
        | nil =>
            rcases @ih [] hRest.symm with
              ⟨past, u, rest, early, late, hRun, hSteps,
                hBefore, hAfter⟩
            refine ⟨t :: past, u, rest, early, late, ?_,
              hSteps, ?_, hAfter⟩
            · rw [hRun, List.cons_append]
            · rw [List.append_nil] at hMore
              rw [← hMore]
              have hBoth : requestsOf (t :: past) ++ early =
                  t.steps ++ (requestsOf past ++ early) :=
                List.append_assoc _ _ _
              rw [hBoth, ← hBefore, List.append_nil]
        | cons first more =>
            rw [List.cons_append, List.cons.injEq] at hRest
            refine ⟨[], t, run, before, more, rfl, ?_, rfl,
              hRest.2⟩
            rw [hMore, hRest.1]

/- A step that is taken is executed. -/
theorem Run.taken
    (hIssued : PlansIssued start)
    (hRun : Run reliable start run w)
    (hRequests : requestsOf run = before ++ s :: after)
    (hTakes : s.op.TakesPlanStep) :
    ∃ plan : ExecutionPlanRecord,
      s.op = .append (.executionPlan plan.next) ∧
        Executed run before.length plan.planId
          plan.currentStepIndex := by
  rcases requestsOf_split hRequests with
    ⟨past, t, rest, early, late, hSplit, hSteps, hBefore, _⟩
  have hMem : t ∈ run := by
    rw [hSplit]
    exact List.mem_append_right _ List.mem_cons_self
  have hRuns := hRun.runs t hMem
  have hBeforeIssued : PlansIssued t.before := by
    refine (hRun.preserves (I := PlansIssued) ?_ hIssued).1 t
      hMem
    intro u _ hRuns hKept
    exact (u.plansFollow hRuns hKept).2
  have hFollows := (t.plansFollow hRuns hBeforeIssued).1 s (by
    rw [hSteps]
    exact List.mem_append_right _ List.mem_cons_self)
  rcases advance_taken .reliable hRuns hSteps hTakes with
    ⟨planned, action, hCurrent, hOp, context, stepsExecuted,
      emittedEvents, hAction⟩
  have hStep := hFollows.2 planned.next hOp
  generalize hVersion : planned.next = version at hStep
  cases hStep with
  | proposed _ hIndex _ =>
      rw [← hVersion] at hIndex
      exact absurd hIndex (Nat.succ_ne_zero _)
  | @taken plan due hDue =>
      -- both give the same step of the same plan
      have hSame : planned.next.steps = plan.next.steps :=
        congrArg ExecutionPlanRecord.steps hVersion
      have hNext : planned.next.currentStepIndex =
          plan.next.currentStepIndex :=
        congrArg ExecutionPlanRecord.currentStepIndex hVersion
      have hSteps' : planned.steps = plan.steps := hSame
      have hIndex : planned.currentStepIndex =
          plan.currentStepIndex :=
        Nat.succ.inj hNext
      have hAlso := (duePlanStep_recorded hDue).2
      rw [hSteps', hIndex, hAlso] at hCurrent
      cases hCurrent
      rw [hVersion] at hOp
      refine ⟨plan, hOp, .intro hSplit hSteps ?_ rfl rfl hDue
        hOp hAction⟩
      rw [hBefore, List.length_append]

/- An executed step stands at its place among the requests. -/
theorem Executed.at_place
    {place index : Nat}
    {planId : String}
    (hExecuted : Executed run place planId index) :
    ∃ before s after, ∃ plan : ExecutionPlanRecord,
      requestsOf run = before ++ s :: after ∧
        place = before.length ∧
        s.op = .append (.executionPlan plan.next) ∧
        plan.planId = planId ∧
        plan.currentStepIndex = index := by
  rcases hExecuted with
    @⟨past, rest, t, early, late, s, plan, _, _, _, _, hRun,
      hSteps, hPlace, hId, hIndex, _, hOp, _⟩
  refine ⟨requestsOf past ++ early, s,
    late ++ requestsOf rest, plan, ?_, ?_, hOp, hId, hIndex⟩
  · rw [hRun]
    unfold requestsOf
    rw [List.flatMap_append, List.flatMap_cons, hSteps]
    simp
  · rw [hPlace, List.length_append]

/- A record that is appended at a place is stored there. -/
theorem Run.stored_at
    {record : SessionRecord}
    (hRun : Run reliable start run w)
    (hRequests : requestsOf run = before ++ s :: after)
    (hOp : s.op = .append record) :
    start.ledger ++ storedIn before ++ [record] =
      start.ledger ++ storedIn (before ++ [s]) := by
  rcases requestsOf_split hRequests with
    ⟨past, t, rest, early, late, hSplit, hSteps, _, _⟩
  have hRuns := hRun.runs t (by
    rw [hSplit]
    exact List.mem_append_right _ List.mem_cons_self)
  have hAllowed := hRuns.allowed s (by
    rw [hSteps]
    exact List.mem_append_right _ List.mem_cons_self)
  have hStored : storedIn [s] = [record] := by
    rcases s with ⟨world, op, answer⟩
    dsimp only at hOp
    subst hOp
    have hOk : answer = .ok () := hAllowed.2
    subst hOk
    rfl
  rw [storedIn_append, hStored, List.append_assoc]

section Places

variable {planId : String}
variable {index place : Nat}

/-
  When a step is executed, its plan has as many versions as
  steps before it and one, and the next version is stored.
-/
theorem Executed.version
    (hRun : Run reliable start run w)
    (hOnce : ∀ ledger, ledger <+: w.ledger →
      VersionsOnce ledger)
    (hExecuted : Executed run place planId index) :
    ∃ before s after, requestsOf run = before ++ s :: after ∧
      place = before.length ∧
      (versionsOf planId
        (start.ledger ++ storedIn before)).length =
          index + 1 ∧
      (versionsOf planId
        (start.ledger ++ storedIn (before ++ [s]))).length =
          index + 2 := by
  rcases hExecuted.at_place with
    ⟨before, s, after, plan, hRequests, hPlace, hOp, hId,
      hIndex⟩
  have hStored := hRun.stored_at hRequests hOp
  have hPrefix :
      start.ledger ++ storedIn (before ++ [s]) <+:
        w.ledger := by
    have hSplit : before ++ s :: after =
        before ++ [s] ++ after := by
      simp
    rw [hRun.ledger_eq, hRequests, hSplit,
      storedIn_append (before ++ [s]), ← List.append_assoc]
    exact List.prefix_append _ _
  have hNextId : plan.next.planId = planId := hId
  have hVersions :
      versionsOf planId
          (start.ledger ++ storedIn (before ++ [s])) =
        versionsOf planId (start.ledger ++ storedIn before) ++
          [plan.next] := by
    rw [← hStored, versionsOf_snoc, if_pos hNextId]
  have hOrder := (hOnce _ hPrefix).inOrder planId
  rw [hVersions, List.map_append, List.map_singleton,
    List.length_append, List.length_singleton,
    List.range_succ] at hOrder
  have hLast := List.append_inj_right' hOrder rfl
  rw [List.singleton_inj] at hLast
  have hNext : plan.next.currentStepIndex = index + 1 := by
    rw [← hIndex]
    rfl
  have hCount := hLast.symm.trans hNext
  refine ⟨before, s, after, hRequests, hPlace, hCount, ?_⟩
  rw [hVersions, List.length_append, List.length_singleton,
    hCount]

/- A plan has no fewer versions at a later place. -/
theorem versionsOf_take_le
    {all : List (Step Op Answer World)}
    {early late : Nat}
    (hLe : early ≤ late) :
    (versionsOf planId
        (start.ledger ++ storedIn (all.take early))).length ≤
      (versionsOf planId
        (start.ledger ++ storedIn (all.take late))).length := by
  have hTake : all.take early <+: all.take late :=
    List.take_prefix_take_left hLe
  rcases hTake with ⟨more, hMore⟩
  rw [← hMore, storedIn_append, ← List.append_assoc]
  have hPrefix : start.ledger ++ storedIn (all.take early) <+:
      start.ledger ++ storedIn (all.take early) ++
        storedIn more := List.prefix_append _ _
  exact ((hPrefix.filterMap _).filter _).length_le

/- A step is executed at one place only. -/
theorem Executed.place_le
    {place' : Nat}
    (hRun : Run reliable start run w)
    (hOnce : ∀ ledger, ledger <+: w.ledger →
      VersionsOnce ledger)
    (hFirst : Executed run place planId index)
    (hSecond : Executed run place' planId index) :
    place' ≤ place := by
  by_contra hLater
  rw [Nat.not_le] at hLater
  rcases hFirst.version hRun hOnce with
    ⟨before, s, after, hRequests, hPlace, _, hNext⟩
  rcases hSecond.version hRun hOnce with
    ⟨before', s', after', hRequests', hPlace', hCount, _⟩
  have hTake : (requestsOf run).take (place + 1) =
      before ++ [s] := by
    rw [hRequests, hPlace, ← List.singleton_append,
      ← List.append_assoc]
    exact List.take_left' (by simp)
  have hTake' : (requestsOf run).take place' = before' := by
    rw [hRequests', hPlace']
    exact List.take_left
  have hLe := @versionsOf_take_le start planId
    (requestsOf run) (place + 1) place' hLater
  rw [hTake, hTake', hNext, hCount] at hLe
  omega

/- The steps before a step have been executed before it. -/
theorem Executed.earlier
    {earlier : Nat}
    (hStart : ∀ plan, .executionPlan plan ∉ start.ledger)
    (hRun : Run reliable start run w)
    (hOnce : ∀ ledger, ledger <+: w.ledger →
      VersionsOnce ledger)
    (hExecuted : Executed run place planId index)
    (hLess : earlier < index) :
    ∃ place' < place, Executed run place' planId earlier := by
  rcases hExecuted.version hRun hOnce with
    ⟨before, s, after, hRequests, hPlace, hCount, _⟩
  have hPrefix :
      start.ledger ++ storedIn before <+: w.ledger := by
    rw [hRun.ledger_eq, hRequests, storedIn_append,
      ← List.append_assoc]
    exact List.prefix_append _ _
  have hOrder := (hOnce _ hPrefix).inOrder planId
  rw [hCount] at hOrder
  have hMem : earlier + 1 ∈ (versionsOf planId
      (start.ledger ++ storedIn before)).map
        (·.currentStepIndex) := by
    rw [hOrder, List.mem_range]
    omega
  rcases List.mem_map.mp hMem with ⟨version, hVersion, hIndex⟩
  rcases List.mem_filter.mp hVersion with ⟨hRecorded, hId⟩
  rw [mem_planVersions] at hRecorded
  rcases List.mem_append.mp hRecorded with hOld | hNew
  · exact absurd hOld (hStart version)
  rcases mem_storedIn hNew with ⟨other, hAt, hOp⟩
  rcases List.append_of_mem hAt with ⟨first, rest, hSplit⟩
  have hOther :
      requestsOf run =
        first ++ other :: (rest ++ s :: after) := by
    rw [hRequests, hSplit, List.append_assoc]
    rfl
  have hTakes : other.op.TakesPlanStep := by
    rw [hOp]
    have hNe : version.currentStepIndex ≠ 0 := by
      rw [hIndex]
      exact Nat.succ_ne_zero _
    exact hNe
  rcases hRun.taken (fun plan hPlan => absurd hPlan (hStart plan))
    hOther hTakes with ⟨plan, hNext, hTaken⟩
  rw [hOp] at hNext
  have hSame : version = plan.next := by
    injection hNext with hRecord
    injection hRecord
  have hPlanId : plan.planId = planId := by
    have hNextId : plan.next.planId = planId := by
      rw [← hSame]
      simpa using hId
    exact hNextId
  have hPlanIndex : plan.currentStepIndex = earlier := by
    have hNextIndex : plan.next.currentStepIndex =
        earlier + 1 := by
      rw [← hSame]
      exact hIndex
    exact Nat.succ.inj hNextIndex
  rw [hPlanId, hPlanIndex] at hTaken
  refine ⟨first.length, ?_, hTaken⟩
  rw [hPlace, hSplit, List.length_append, List.length_cons]
  omega

end Places

/-
  In a session whose store does not fail, every step of a plan
  that is taken is executed. The steps of the plans are
  executed once and in order, and no completed plan is active
  in any ledger reached, if and only if no advance takes the
  last step of a plan.
-/
theorem run_plans_once_iff
    (start w : World)
    (run : List Advance)
    (hStart : ∀ plan, .executionPlan plan ∉ start.ledger)
    (hRun : Run reliable start run w) :
    (∀ before s after,
      requestsOf run = before ++ s :: after →
        s.op.TakesPlanStep →
          ∃ planId index,
            Executed run before.length planId index) ∧
      (PlansOnce run w ↔
        ∀ t ∈ run, ∀ s ∈ t.steps, ¬LastStepTaken s) := by
  have hIssued : PlansIssued start :=
    fun plan hMem => (hStart plan hMem).elim
  refine ⟨?_, ?_, ?_⟩
  · intro before s after hRequests hTakes
    rcases hRun.taken hIssued hRequests hTakes with
      ⟨plan, _, hExecuted⟩
    exact ⟨_, _, hExecuted⟩
  · intro hOnce t hMem s hStep hLast
    rcases hLast with ⟨plan, action, hDue, hLast, hOp⟩
    have hRuns := hRun.runs t hMem
    have hPrefix := exec_append_prefix hRuns hStep hOp
    apply not_once_of_last hDue hLast
    exact hOnce.versions _
      (hPrefix.trans (hRun.after_prefix hMem))
  · intro hMore
    have hKept := hRun.preserves
      (I := fun w => PlansIssued w ∧ Steady w.ledger) ?_
      ⟨hIssued, .of_unplanned hStart⟩
    · have hOnce : ∀ ledger, ledger <+: w.ledger →
          VersionsOnce ledger :=
        fun ledger hPrefix => hKept.2.2.once hPrefix
      constructor
      · intro planId index place place' hFirst hSecond
        exact Nat.le_antisymm
          (hSecond.place_le hRun hOnce hFirst)
          (hFirst.place_le hRun hOnce hSecond)
      · intro planId i j place hExecuted hLess
        exact hExecuted.earlier hStart hRun hOnce hLess
      · exact hOnce
    · intro t hMem hRuns hBefore
      exact ⟨(t.plansFollow hRuns hBefore.1).2,
        t.steady hRuns hBefore.1 (hMore t hMem) hBefore.2⟩

end Runs

namespace Sample

def reflects : AgentAction :=
  .continueWith .modelRequested

/- A planner that proposes to reflect a number of times. -/
def proposes (count : Nat) : Script :=
  { responds with
    planned :=
      { proposedPlan := some
          { objective := "reflect"
            steps := List.replicate count reflects } } }

def planTurns (count : Nat) : List (Script × AdvanceRequest) :=
  [(proposes count, .trigger message),
    (responds, .continueWith resume)]

def planAdvances (count : Nat) : List Advance :=
  Script.advances planning (planTurns count)
    (World.empty "session")

def planSession (count : Nat) : World :=
  Script.session planning (planTurns count)
    (World.empty "session")

/- The due step, if there is one, is not the last of its plan. -/
def stepsLeft (s : Step Op Answer World) : Bool :=
  match duePlanStep s.before.ledger with
  | none => true
  | some (plan, _) =>
      plan.steps.length != plan.currentStepIndex + 1

theorem not_lastStepTaken
    {s : Step Op Answer World}
    (hLeft : stepsLeft s = true) :
    ¬LastStepTaken s := by
  intro hTaken
  rcases hTaken with ⟨plan, action, hDue, hLast, _⟩
  unfold stepsLeft at hLeft
  rw [hDue] at hLeft
  simp [hLast] at hLeft

end Sample

/- Two of three steps are taken, each of them once. -/
theorem run_plans_once_three :
    (versionsOf "plan-1" (Sample.planSession 3).ledger).map
        (·.currentStepIndex) = [0, 1, 2] ∧
      PlansOnce (Sample.planAdvances 3)
        (Sample.planSession 3) := by
  refine ⟨by decide +kernel, ?_⟩
  have hLeft :
      (Sample.planAdvances 3).all
        (fun t => t.steps.all Sample.stepsLeft) = true := by
    decide +kernel
  apply (run_plans_once_iff (World.empty "session")
    (Sample.planSession 3) (Sample.planAdvances 3)
    (fun _ => nofun) (Script.session_run _ _ _)).2.mpr
  intro t hMem s hStep
  rw [List.all_eq_true] at hLeft
  have hSteps := hLeft t hMem
  rw [List.all_eq_true] at hSteps
  exact Sample.not_lastStepTaken (hSteps s hStep)

/-
  A plan of one step is completed by the first advance, and
  the second advance takes the step again.
-/
theorem last_step_repeated :
    (versionsOf "plan-1" (Sample.planSession 1).ledger).map
        (fun plan =>
          (plan.currentStepIndex, plan.completedAt)) =
      [(0, false), (1, true), (1, true)] ∧
    ¬(∀ (start w : World) (run : List Advance),
      (∀ plan, .executionPlan plan ∉ start.ledger) →
        Run reliable start run w → PlansOnce run w) := by
  refine ⟨by decide +kernel, ?_⟩
  intro hAll
  have hOnce := hAll (World.empty "session")
    (Sample.planSession 1) (Sample.planAdvances 1)
    (fun _ => nofun) (Script.session_run _ _ _)
  have hOrder := (hOnce.versions _
    (List.prefix_refl _)).inOrder "plan-1"
  revert hOrder
  decide +kernel

end RainEngine
