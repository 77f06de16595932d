import RainEngine.Cognition.ResearchPlanner
import RainEngine.States.Projection

/-
  This file models the planner that keeps a task graph. When
  it wakes up it claims the first task that is ready, blocked
  or waiting for a human, whatever blocks it, and a claimed
  task is running. No task is run early exactly in the runs in
  which that first task is free whenever the planner wakes up.

  Key definitions include:
    * `MinimalTaskGraphPlanner.plan`
    * `Unblocked`
    * `FirstFree`
    * `Move`
    * `Along`

  Key theorems include:
    * `startsUnblocked_iff`
    * `blocked_not_run_early_iff`
-/

namespace RainEngine.Cognition

------------------------------------------------------------
-- The Planner
------------------------------------------------------------

def followUpMs : Nat :=
  30 * 60 * 1000

def followUpWake
    (now : SystemTime)
    (taskId : Option TaskId) :
    WakeRequestRecord where
  wakeId := "wake-" ++ toString now
  requestedAt := now
  dueAt := now + followUpMs
  reason := "follow up on active task"
  taskId := taskId

/- The one task of a new goal. -/
def openedTask
    (state : AgentStateSnapshot)
    (title detail : String) :
    TaskRecord where
  taskId := taskName (state.tasks.length + 1)
  goalId := some (goalName (state.goals.length + 1))
  parentTaskId := none
  title := title
  detail := some detail
  status := .ready
  assignee := none
  blockedBy := []

/- A goal with one task for it, and a wake to look after it. -/
def openGoal
    (now : SystemTime)
    (state : AgentStateSnapshot)
    (title detail taskTitle taskDetail : String) :
    PlannerOutput :=
  let task := openedTask state taskTitle taskDetail
  { events :=
      [.goalCreated
          { goalId := goalName (state.goals.length + 1)
            title := title
            detail := some detail
            status := .active
            parentGoalId := none },
        .taskPlanned task,
        .wakeScheduled (followUpWake now (some task.taskId))]
    proposedPlan := none }

def isClaimable (task : TaskRecord) : Bool :=
  match task.status with
  | .ready => true
  | .blocked => true
  | .waitingHuman => true
  | _ => false

namespace MinimalTaskGraphPlanner

def fromInput
    (now : SystemTime)
    (state : AgentStateSnapshot)
    (content : String) :
    PlannerOutput :=
  if hasActiveTasks state then {}
  else
    openGoal now state content "created from user input"
      ("Investigate: " ++ content)
      "planned from new observation"

def fromSource
    (now : SystemTime)
    (state : AgentStateSnapshot)
    (source : String) :
    PlannerOutput :=
  if hasActiveTasks state then {}
  else
    openGoal now state ("Respond to " ++ source)
      "created from external observation"
      ("Triage " ++ source)
      "planned from system observation"

def plan
    (now : SystemTime)
    (state : AgentStateSnapshot) :
    AgentTrigger → PlannerOutput
| .humanInput _ content _ => fromInput now state content
| .message _ content _ => fromInput now state content
| .systemObservation source _ _ =>
    fromSource now state source
| .externalEvent source _ _ => fromSource now state source
| .scheduledWake _ _ _ =>
    match state.tasks.find? isClaimable with
    | some task =>
        { events :=
            [.taskClaimed task.taskId (some "scheduler")]
          proposedPlan := none }
    | none => {}
| _ => {}

end MinimalTaskGraphPlanner

------------------------------------------------------------
-- Blocked Tasks
------------------------------------------------------------

/- The task an event on the given id is about. -/
def taskNamed
    (state : AgentStateSnapshot)
    (taskId : TaskId) :
    Option TaskRecord :=
  state.tasks.find? fun task => task.taskId = taskId

def HasStatus
    (state : AgentStateSnapshot)
    (status : TaskStatus)
    (taskId : TaskId) :
    Prop :=
  ∃ task, taskNamed state taskId = some task ∧
    task.status = status

/- The task waits neither for a human nor for other tasks. -/
def Unblocked
    (state : AgentStateSnapshot)
    (taskId : TaskId) :
    Prop :=
  ∃ task, taskNamed state taskId = some task ∧
    task.status ≠ .waitingHuman ∧
    ∀ blocker ∈ task.blockedBy, HasStatus state .done blocker

/- The first task that can be claimed is unblocked. -/
def FirstFree (state : AgentStateSnapshot) : Prop :=
  ∀ task, state.tasks.find? isClaimable = some task →
    Unblocked state task.taskId

/- The planner claims unblocked tasks when it wakes up. -/
def ClaimsUnblocked
    (state : AgentStateSnapshot) :
    Prop :=
  ∀ now wakeId dueAt reason taskId assignee,
    .taskClaimed taskId assignee ∈
        (MinimalTaskGraphPlanner.plan now state
          (.scheduledWake wakeId dueAt reason)).events →
      Unblocked state taskId

theorem claimsUnblocked_iff
    (state : AgentStateSnapshot) :
    ClaimsUnblocked state ↔ FirstFree state := by
  constructor
  · intro hClaims task hFirst
    apply hClaims 0 "" 0 "" task.taskId (some "scheduler")
    unfold MinimalTaskGraphPlanner.plan
    rw [hFirst]
    exact List.mem_singleton_self _
  · intro hFree now wakeId dueAt reason taskId assignee hMem
    unfold MinimalTaskGraphPlanner.plan at hMem
    cases hFirst : state.tasks.find? isClaimable with
    | none =>
        rw [hFirst] at hMem
        cases hMem
    | some task =>
        rw [hFirst] at hMem
        cases List.mem_singleton.mp hMem
        exact hFree task hFirst

------------------------------------------------------------
-- Tasks After An Event
------------------------------------------------------------

section Tasks

variable {tasks : List TaskRecord}
variable {task : TaskRecord}
variable {target taskId : TaskId}
variable {change : TaskRecord → TaskRecord}

/- A change concerns the task with the id only. -/
theorem find_updateTask
    (hKeeps : ∀ task, (change task).taskId = task.taskId) :
    (updateTask tasks target change).find?
        (fun task => task.taskId = taskId) =
      if taskId = target then
        (tasks.find?
          fun task => task.taskId = taskId).map change
      else tasks.find? fun task => task.taskId = taskId := by
  induction tasks with
  | nil =>
      unfold updateTask
      rw [List.find?_nil, Option.map_none, ite_self]
  | cons first rest ih =>
      unfold updateTask
      by_cases hFirst : first.taskId = target
      · rw [if_pos hFirst, List.find?_cons, List.find?_cons,
          hKeeps]
        by_cases hId : first.taskId = taskId
        · have hTarget : taskId = target :=
            hId.symm.trans hFirst
          simp only [hId, hTarget, decide_true, if_true,
            Option.map_some]
        · have hOther : taskId ≠ target := by
            intro hEq
            exact hId (hFirst.trans hEq.symm)
          simp only [hId, hOther, decide_false, if_false]
      · rw [if_neg hFirst, List.find?_cons, List.find?_cons]
        by_cases hId : first.taskId = taskId
        · have hOther : taskId ≠ target := by
            intro hEq
            exact hFirst (hId.trans hEq)
          simp only [hId, hOther, decide_true, if_false]
        · simp only [hId, decide_false]
          exact ih

/- A planned task is the one with its id. -/
theorem find_upsertByKey :
    (upsertByKey tasks task (·.taskId)).find?
        (fun task => task.taskId = taskId) =
      if taskId = task.taskId then some task
      else tasks.find? fun task => task.taskId = taskId := by
  induction tasks with
  | nil =>
      unfold upsertByKey
      rw [List.find?_cons, List.find?_nil]
      by_cases hId : task.taskId = taskId
      · simp only [hId, decide_true, if_true]
      · have hOther : taskId ≠ task.taskId := Ne.symm hId
        simp only [hId, hOther, decide_false, if_false]
  | cons first rest ih =>
      unfold upsertByKey
      by_cases hFirst : first.taskId = task.taskId
      · rw [if_pos hFirst, List.find?_cons, List.find?_cons]
        by_cases hId : task.taskId = taskId
        · simp only [hId, decide_true, if_true]
        · have hOther : taskId ≠ task.taskId := Ne.symm hId
          have hNot : first.taskId ≠ taskId := by
            rw [hFirst]
            exact hId
          simp only [hId, hNot, hOther, decide_false, if_false]
      · rw [if_neg hFirst, List.find?_cons, List.find?_cons]
        by_cases hId : first.taskId = taskId
        · have hOther : taskId ≠ task.taskId := by
            intro hEq
            exact hFirst (hId.trans hEq)
          simp only [hId, hOther, decide_true, if_false]
        · simp only [hId, decide_false]
          exact ih

theorem find_of_mem
    (hDistinct : (tasks.map (·.taskId)).Nodup)
    (hMem : task ∈ tasks) :
    tasks.find? (fun other => other.taskId = task.taskId) =
      some task := by
  induction tasks with
  | nil => cases hMem
  | cons first rest ih =>
      rw [List.map_cons, List.nodup_cons] at hDistinct
      rw [List.find?_cons]
      cases List.mem_cons.mp hMem with
      | inl hFirst =>
          subst hFirst
          simp only [decide_true]
      | inr hRest =>
          have hApart : first.taskId ≠ task.taskId := by
            intro hEq
            apply hDistinct.1
            rw [hEq]
            exact List.mem_map_of_mem hRest
          simp only [hApart, decide_false]
          exact ih hDistinct.2 hRest

end Tasks

------------------------------------------------------------
-- Runs
------------------------------------------------------------

/- The state that the events of a session add up to. -/
def stateOf
    (sessionId : String)
    (log : List KernelEvent) :
    AgentStateSnapshot :=
  (log.foldl AgentStateSnapshot.applyEvent
    (.empty sessionId)).withProfile

/- The planner answers a trigger, or an event is reported. -/
inductive Move where
  | answer (now : SystemTime) (trigger : AgentTrigger)
  | report (event : KernelEvent)

/- The events a move adds in a state. -/
def Move.events
    (state : AgentStateSnapshot) :
    Move → List KernelEvent
| .answer now trigger =>
    (MinimalTaskGraphPlanner.plan now state trigger).events
| .report event => [event]

/- The events of a session after one more move. -/
def Move.next
    (sessionId : String)
    (log : List KernelEvent)
    (move : Move) :
    List KernelEvent :=
  log ++ move.events (stateOf sessionId log)

/- Every move of a run has the property where it is made. -/
def Along
    (sessionId : String)
    (P : List KernelEvent → Move → Prop)
    (log : List KernelEvent) :
    List Move → Prop
| [] => True
| move :: rest =>
    P log move ∧
      Along sessionId P (move.next sessionId log) rest

/- A task that the planner starts is unblocked. -/
def StartsUnblocked
    (sessionId : String)
    (log : List KernelEvent)
    (move : Move) :
    Prop :=
  ∀ now trigger, move = .answer now trigger →
    ∀ taskId,
      ¬HasStatus (stateOf sessionId log) .running taskId →
      HasStatus (stateOf sessionId (move.next sessionId log))
        .running taskId →
      Unblocked (stateOf sessionId log) taskId

/- When the planner wakes up, its first task is unblocked. -/
def WakesFree
    (sessionId : String)
    (log : List KernelEvent)
    (move : Move) :
    Prop :=
  ∀ now wakeId dueAt reason,
    move = .answer now (.scheduledWake wakeId dueAt reason) →
      FirstFree (stateOf sessionId log)

section Runs

variable {sessionId : String}
variable {log : List KernelEvent}
variable {taskId : TaskId}

theorem stateOf_tasks :
    (stateOf sessionId log).tasks = taskLog.table log := by
  show (log.foldl AgentStateSnapshot.applyEvent
    (.empty sessionId)).tasks = _
  rw [foldl_applyEvent]
  rfl

theorem stateOf_distinct :
    ((stateOf sessionId log).tasks.map
      (·.taskId)).Nodup := by
  rw [stateOf_tasks]
  exact taskLog.table_nodup

theorem along_congr
    {P Q : List KernelEvent → Move → Prop}
    (hMoves : ∀ log move, P log move ↔ Q log move)
    (moves : List Move) :
    Along sessionId P log moves ↔
      Along sessionId Q log moves := by
  induction moves generalizing log with
  | nil => exact Iff.rfl
  | cons move rest ih =>
      exact and_congr (hMoves log move) ih

/- A claim makes its task run and leaves the others alone. -/
theorem taskNamed_claimed
    {target : TaskId}
    {assignee : Option String} :
    taskNamed
        (stateOf sessionId
          (log ++ [.taskClaimed target assignee])) taskId =
      if taskId = target then
        (taskNamed (stateOf sessionId log) taskId).map
          fun task =>
            { task with
              status := .running
              assignee := assignee }
      else taskNamed (stateOf sessionId log) taskId := by
  unfold stateOf
  rw [List.foldl_append]
  exact find_updateTask fun _ => rfl

/- An opened goal has a new task. -/
theorem taskNamed_opened
    {now : SystemTime}
    {state : AgentStateSnapshot}
    {title detail taskTitle taskDetail : String} :
    taskNamed
        (stateOf sessionId
          (log ++ (openGoal now state title detail taskTitle
            taskDetail).events)) taskId =
      if taskId =
          (openedTask state taskTitle taskDetail).taskId then
        some (openedTask state taskTitle taskDetail)
      else taskNamed (stateOf sessionId log) taskId := by
  unfold stateOf
  rw [List.foldl_append]
  exact find_upsertByKey

/- A goal is opened unless a task is active. -/
theorem opened_unless_active
    (now : SystemTime)
    (state : AgentStateSnapshot)
    (title detail taskTitle taskDetail : String) :
    (if hasActiveTasks state then ({} : PlannerOutput)
      else
        openGoal now state title detail taskTitle
          taskDetail).events = [] ∨
      (if hasActiveTasks state then ({} : PlannerOutput)
        else
          openGoal now state title detail taskTitle
            taskDetail).events =
        (openGoal now state title detail taskTitle
          taskDetail).events := by
  by_cases hActive : hasActiveTasks state = true
  · rw [if_pos hActive]
    exact .inl rfl
  · rw [if_neg hActive]
    exact .inr rfl

/- What the planner adds when it does not wake up. -/
theorem plan_events
    (now : SystemTime)
    (state : AgentStateSnapshot)
    (trigger : AgentTrigger) :
    (∃ wakeId dueAt reason,
        trigger = .scheduledWake wakeId dueAt reason) ∨
      (MinimalTaskGraphPlanner.plan now state
        trigger).events = [] ∨
      ∃ title detail taskTitle taskDetail,
        (MinimalTaskGraphPlanner.plan now state
            trigger).events =
          (openGoal now state title detail taskTitle
            taskDetail).events := by
  have hInput : ∀ content,
      (MinimalTaskGraphPlanner.fromInput now state
        content).events = [] ∨
      ∃ title detail taskTitle taskDetail,
        (MinimalTaskGraphPlanner.fromInput now state
            content).events =
          (openGoal now state title detail taskTitle
            taskDetail).events := by
    intro content
    have hEvents := opened_unless_active now state content
      "created from user input" ("Investigate: " ++ content)
      "planned from new observation"
    exact hEvents.imp_right fun hOpened =>
      ⟨_, _, _, _, hOpened⟩
  have hSource : ∀ source,
      (MinimalTaskGraphPlanner.fromSource now state
        source).events = [] ∨
      ∃ title detail taskTitle taskDetail,
        (MinimalTaskGraphPlanner.fromSource now state
            source).events =
          (openGoal now state title detail taskTitle
            taskDetail).events := by
    intro source
    have hEvents := opened_unless_active now state
      ("Respond to " ++ source)
      "created from external observation"
      ("Triage " ++ source)
      "planned from system observation"
    exact hEvents.imp_right fun hOpened =>
      ⟨_, _, _, _, hOpened⟩
  cases trigger with
  | scheduledWake wakeId dueAt reason =>
      exact .inl ⟨wakeId, dueAt, reason, rfl⟩
  | humanInput _ content _ => exact .inr (hInput content)
  | message _ content _ => exact .inr (hInput content)
  | systemObservation source _ _ =>
      exact .inr (hSource source)
  | externalEvent source _ _ => exact .inr (hSource source)
  | webhook source _ _ => exact .inr (.inl rfl)
  | ruleTrigger ruleId _ _ => exact .inr (.inl rfl)
  | proactiveHeartbeat _ _ => exact .inr (.inl rfl)
  | approval _ _ _ => exact .inr (.inl rfl)
  | delegationResult _ _ _ => exact .inr (.inl rfl)

/- The planner starts no task before it wakes up. -/
theorem running_of_opened
    {now : SystemTime}
    {state : AgentStateSnapshot}
    {title detail taskTitle taskDetail : String}
    (hRunning :
      HasStatus
        (stateOf sessionId
          (log ++ (openGoal now state title detail taskTitle
            taskDetail).events)) .running taskId) :
    HasStatus (stateOf sessionId log) .running taskId := by
  obtain ⟨task, hTask, hStatus⟩ := hRunning
  rw [taskNamed_opened] at hTask
  by_cases hId :
      taskId = (openedTask state taskTitle taskDetail).taskId
  · rw [if_pos hId] at hTask
    rw [← Option.some.inj hTask] at hStatus
    cases hStatus
  · rw [if_neg hId] at hTask
    exact ⟨task, hTask, hStatus⟩

theorem claimable_not_running
    {task : TaskRecord}
    (hClaimable : isClaimable task = true) :
    task.status ≠ .running := by
  intro hRunning
  unfold isClaimable at hClaimable
  rw [hRunning] at hClaimable
  cases hClaimable

theorem next_answer
    {now : SystemTime}
    {trigger : AgentTrigger} :
    (Move.answer now trigger).next sessionId log =
      log ++
        (MinimalTaskGraphPlanner.plan now
          (stateOf sessionId log) trigger).events :=
  rfl

/- A wake-up claims the first task that can be claimed. -/
theorem next_wake
    {now : SystemTime}
    {wakeId : WakeId}
    {dueAt : SystemTime}
    {reason : String} :
    (Move.answer now
        (.scheduledWake wakeId dueAt reason)).next
        sessionId log =
      match
        (stateOf sessionId log).tasks.find? isClaimable with
      | some task =>
          log ++ [.taskClaimed task.taskId (some "scheduler")]
      | none => log := by
  rw [next_answer]
  unfold MinimalTaskGraphPlanner.plan
  cases (stateOf sessionId log).tasks.find? isClaimable with
  | none => exact List.append_nil log
  | some task => rfl

/- What one move starts is what its first claim starts. -/
theorem startsUnblocked_iff
    (log : List KernelEvent)
    (move : Move) :
    StartsUnblocked sessionId log move ↔
      WakesFree sessionId log move := by
  constructor
  · intro hStarts now wakeId dueAt reason hMove task hFirst
    have hNamed := find_of_mem stateOf_distinct
      (List.mem_of_find?_eq_some hFirst)
    have hClaimable := List.find?_some hFirst
    apply hStarts now _ hMove task.taskId
    · intro hRunning
      obtain ⟨other, hOther, hStatus⟩ := hRunning
      rw [taskNamed, hNamed] at hOther
      rw [← Option.some.inj hOther] at hStatus
      exact claimable_not_running hClaimable hStatus
    · rw [hMove, next_wake, hFirst]
      refine ⟨
        { task with
          status := .running
          assignee := some "scheduler" }, ?_, rfl⟩
      show taskNamed (stateOf sessionId
        (log ++ [.taskClaimed task.taskId
          (some "scheduler")])) task.taskId = _
      rw [taskNamed_claimed, if_pos rfl, taskNamed, hNamed]
      rfl
  · intro hFree now trigger hMove taskId hBefore hAfter
    subst hMove
    rcases plan_events now (stateOf sessionId log) trigger with
      hWake | hNothing | hOpened
    · obtain ⟨wakeId, dueAt, reason, hTrigger⟩ := hWake
      subst hTrigger
      rw [next_wake] at hAfter
      cases hFirst :
          (stateOf sessionId log).tasks.find? isClaimable with
      | none =>
          rw [hFirst] at hAfter
          exact absurd hAfter hBefore
      | some task =>
          rw [hFirst] at hAfter
          obtain ⟨started, hNamed, hRunning⟩ := hAfter
          rw [taskNamed_claimed] at hNamed
          by_cases hId : taskId = task.taskId
          · rw [hId]
            exact hFree now wakeId dueAt reason rfl task hFirst
          · rw [if_neg hId] at hNamed
            exact absurd ⟨started, hNamed, hRunning⟩ hBefore
    · rw [next_answer, hNothing, List.append_nil] at hAfter
      exact absurd hAfter hBefore
    · obtain ⟨title, detail, taskTitle, taskDetail, hEvents⟩ :=
        hOpened
      rw [next_answer, hEvents] at hAfter
      exact absurd (running_of_opened hAfter) hBefore

end Runs

/-
  The planner claims unblocked tasks exactly in the states in
  which the first task it can claim is one, and no task starts
  early exactly in the runs that wake it up in such states.
-/
theorem blocked_not_run_early_iff
    (sessionId : String) :
    (∀ state, ClaimsUnblocked state ↔ FirstFree state) ∧
      ∀ moves,
        Along sessionId (StartsUnblocked sessionId) []
            moves ↔
          Along sessionId (WakesFree sessionId) [] moves :=
  ⟨claimsUnblocked_iff, along_congr startsUnblocked_iff⟩

------------------------------------------------------------
-- A Blocked Task That Runs
------------------------------------------------------------

namespace Sample

def graphTask
    (taskId : TaskId)
    (status : TaskStatus)
    (assignee : Option String)
    (blockedBy : List TaskId) :
    TaskRecord where
  taskId := taskId
  goalId := some "goal-1"
  parentTaskId := none
  title := ""
  detail := none
  status := status
  assignee := assignee
  blockedBy := blockedBy

def plannedGraph : List KernelEvent :=
  [.taskPlanned (graphTask "task-1" .ready none []),
    .taskPlanned
      (graphTask "task-2" .blocked none ["task-1"])]

def wakeUp (now : SystemTime) : Move :=
  .answer now (.scheduledWake "wake" now "check")

/- The first task runs, and the planner wakes up again. -/
def twoWakes : List Move :=
  plannedGraph.map .report ++ [wakeUp 0, wakeUp 1]

def firstClaimed : List KernelEvent :=
  plannedGraph ++
    [.taskClaimed "task-1" (some "scheduler")]

theorem firstClaimed_second :
    taskNamed (stateOf "session" firstClaimed) "task-2" =
      some (graphTask "task-2" .blocked none ["task-1"]) := by
  decide +kernel

theorem firstClaimed_blocked :
    ¬Unblocked (stateOf "session" firstClaimed)
      "task-2" := by
  intro hUnblocked
  obtain ⟨task, hTask, _, hBlockers⟩ := hUnblocked
  rw [firstClaimed_second] at hTask
  obtain ⟨blocker, hBlocker, hDone⟩ :=
    hBlockers "task-1" (by
      rw [← Option.some.inj hTask]
      exact List.mem_cons_self)
  have hRunning :
      taskNamed (stateOf "session" firstClaimed) "task-1" =
        some (graphTask "task-1" .running
          (some "scheduler") []) := by
    decide +kernel
  rw [hRunning] at hBlocker
  rw [← Option.some.inj hBlocker] at hDone
  cases hDone

end Sample

/- The second task is claimed while it waits for the first. -/
theorem blocked_task_claimed :
    ¬ClaimsUnblocked
        (stateOf "session" Sample.firstClaimed) ∧
      ¬Along "session" (StartsUnblocked "session") []
        Sample.twoWakes := by
  constructor
  · intro hClaims
    apply Sample.firstClaimed_blocked
    apply hClaims 1 "wake" 1 "check" "task-2"
      (some "scheduler")
    exact List.mem_singleton_self _
  · intro hAlong
    apply Sample.firstClaimed_blocked
    apply hAlong.2.2.2.1 1 _ rfl "task-2"
    · intro hRunning
      obtain ⟨task, hTask, hStatus⟩ := hRunning
      have hSame :=
        Sample.firstClaimed_second.symm.trans hTask
      rw [← Option.some.inj hSame] at hStatus
      cases hStatus
    · refine ⟨Sample.graphTask "task-2" .running
        (some "scheduler") ["task-1"], ?_, rfl⟩
      decide +kernel

end RainEngine.Cognition
