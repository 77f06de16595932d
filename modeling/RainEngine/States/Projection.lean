import RainEngine.Kernel.Ledger
import RainEngine.Logs.Keyed

/-
  This file reads the agent state of a ledger off its kernel
  events. Goals, tasks, artifacts and resources are the last
  records of their ids, in the order the ids first appear; a
  task also has the status and the assignee of the last event
  that reports them.

  Key definitions include:
    * `KernelEvent.plannedTask`
    * `KernelEvent.reportedTask`
    * `taskLog`
    * `TaskReading`
    * `LastWriter`

  Key theorems include:
    * `applyEvent_tasks`
    * `agentState_lastWriter`
-/

namespace RainEngine

open Logs

------------------------------------------------------------
-- Events As Writes
------------------------------------------------------------

namespace KernelEvent

def createdGoal : KernelEvent → Option GoalRecord
| .goalCreated goal => some goal
| _ => none

def plannedTask : KernelEvent → Option TaskRecord
| .taskPlanned task => some task
| _ => none

theorem plannedTask_eq_some
    {event : KernelEvent}
    {task : TaskRecord}
    (hPlan : event.plannedTask = some task) :
    event = .taskPlanned task := by
  cases event with
  | taskPlanned plan =>
      cases hPlan
      rfl
  | _ => cases hPlan

def producedArtifact : KernelEvent → Option ArtifactRecord
| .artifactProduced artifact => some artifact
| _ => none

/- The resource of a delegation is the delegation itself. -/
def registeredResource : KernelEvent → Option ResourceRef
| .delegationRequested record =>
    some
      { resourceId := record.correlationId
        resourceType := "delegation"
        label := record.task.taskType
        externalRef := some record.target.stream }
| .resourceRegistered resource => some resource
| _ => none

def appendedObservation :
    KernelEvent → Option ObservationRecord
| .observationAppended observation => some observation
| _ => none

def observedRelationship :
    KernelEvent → Option RelationshipEdge
| .relationshipObserved edge => some edge
| _ => none

/- The task an event reports on. -/
def reportedTask : KernelEvent → Option TaskId
| .taskClaimed taskId _ => some taskId
| .taskBlocked taskId _ => some taskId
| .taskCompleted taskId _ => some taskId
| .taskFailed taskId _ => some taskId
| .taskAbandoned taskId _ => some taskId
| .humanInputRequested taskId _ _ => taskId
| _ => none

/- The status an event reports its task in. -/
def reportedStatus : KernelEvent → Option TaskStatus
| .taskClaimed _ _ => some .running
| .taskBlocked _ _ => some .blocked
| .taskCompleted _ _ => some .done
| .taskFailed _ _ => some .failed
| .taskAbandoned _ _ => some .abandoned
| .humanInputRequested _ _ _ => some .waitingHuman
| _ => none

/- The assignee an event claims its task for. -/
def claimedFor : KernelEvent → Option (Option String)
| .taskClaimed _ assignee => some assignee
| _ => none

/- What an event makes of the task it reports on. -/
def report
    (event : KernelEvent)
    (task : TaskRecord) :
    TaskRecord :=
  { task with
    status := event.reportedStatus.getD task.status
    assignee := event.claimedFor.getD task.assignee }

/- A reading of the events that report on one task. -/
def about
    {α : Type}
    (taskId : TaskId)
    (read : KernelEvent → Option α)
    (event : KernelEvent) :
    Option α :=
  if event.reportedTask = some taskId then read event
  else none

end KernelEvent

open KernelEvent

def taskLog : KeyedLog KernelEvent TaskId TaskRecord where
  key := (·.taskId)
  put := plannedTask
  target := reportedTask
  change := report
  apart := by
    intro event hTarget
    cases event with
    | taskPlanned task => exact absurd rfl hTarget
    | _ => rfl
  keeps := fun _ _ => rfl

def goalLog : KeyedLog KernelEvent GoalId GoalRecord :=
  .ofPuts (·.goalId) createdGoal

def artifactLog :
    KeyedLog KernelEvent ArtifactId ArtifactRecord :=
  .ofPuts (·.artifactId) producedArtifact

def resourceLog : KeyedLog KernelEvent String ResourceRef :=
  .ofPuts (·.resourceId) registeredResource

/- The wake that is pending after an event. -/
def KernelEvent.nextWake
    (pending : Option WakeRequestRecord) :
    KernelEvent → Option WakeRequestRecord
| .wakeRequested wake => some wake
| .wakeScheduled wake => some wake
| .wakeCompleted wakeId _ =>
    if pending.any (·.wakeId = wakeId) then none
    else pending
| _ => pending

------------------------------------------------------------
-- The Projection As Tables
------------------------------------------------------------

theorem upsertByKey_eq_upsert
    {α κ : Type}
    [DecidableEq κ]
    (key : α → κ)
    (items : List α)
    (value : α) :
    upsertByKey items value key = upsert key items value := by
  induction items with
  | nil => rfl
  | cons item rest ih =>
      unfold upsertByKey upsert
      rw [ih]

theorem updateTask_eq_changeAt
    (tasks : List TaskRecord)
    (taskId : TaskId)
    (change : TaskRecord → TaskRecord) :
    updateTask tasks taskId change =
      changeAt (·.taskId) tasks taskId change := by
  induction tasks with
  | nil => rfl
  | cons task rest ih =>
      unfold updateTask changeAt
      rw [ih]

section Projection

variable {state : AgentStateSnapshot}
variable {event : KernelEvent}

theorem withTasks
    {tasks tasks' : List TaskRecord}
    (hTasks : tasks = tasks') :
    { state with tasks := tasks } =
      { state with tasks := tasks' } :=
  congrArg (fun tasks => { state with tasks := tasks }) hTasks

/- What an event does to each field of the state. -/
theorem applyEvent_eq :
    state.applyEvent event =
      { state with
        goals := goalLog.write state.goals event
        tasks := taskLog.write state.tasks event
        observations :=
          push state.observations event.appendedObservation
        artifacts := artifactLog.write state.artifacts event
        resources := resourceLog.write state.resources event
        relationships :=
          push state.relationships event.observedRelationship
        pendingWake := event.nextWake state.pendingWake } := by
  cases event with
  | goalCreated goal =>
      exact congrArg (fun goals => { state with goals := goals })
        (upsertByKey_eq_upsert (·.goalId) _ _)
  | taskPlanned task =>
      exact withTasks
        (upsertByKey_eq_upsert TaskRecord.taskId _ _)
  | taskClaimed taskId assignee =>
      exact withTasks (updateTask_eq_changeAt _ _ _)
  | taskBlocked taskId reason =>
      exact withTasks (updateTask_eq_changeAt _ _ _)
  | taskCompleted taskId artifactIds =>
      exact withTasks (updateTask_eq_changeAt _ _ _)
  | taskFailed taskId reason =>
      exact withTasks (updateTask_eq_changeAt _ _ _)
  | taskAbandoned taskId reason =>
      exact withTasks (updateTask_eq_changeAt _ _ _)
  | humanInputRequested taskId prompt resumeToken =>
      cases taskId with
      | none => rfl
      | some taskId =>
          exact withTasks (updateTask_eq_changeAt _ _ _)
  | artifactProduced artifact =>
      exact congrArg
        (fun artifacts => { state with artifacts := artifacts })
        (upsertByKey_eq_upsert (·.artifactId) _ _)
  | delegationRequested record =>
      exact congrArg
        (fun resources => { state with resources := resources })
        (upsertByKey_eq_upsert (·.resourceId) _ _)
  | resourceRegistered resource =>
      exact congrArg
        (fun resources => { state with resources := resources })
        (upsertByKey_eq_upsert (·.resourceId) _ _)
  | wakeCompleted wakeId reason =>
      dsimp only [AgentStateSnapshot.applyEvent, nextWake]
      split <;> rfl
  | _ => rfl

end Projection

------------------------------------------------------------
-- The State Of A Ledger
------------------------------------------------------------

/- The kernel events of a ledger. -/
def eventsOf (records : List SessionRecord) :
    List KernelEvent :=
  (records.filterMap SessionRecord.asKernelEvent).map (·.event)

/- What a list of events does to each field of the state. -/
theorem foldl_applyEvent
    {state : AgentStateSnapshot}
    {events : List KernelEvent} :
    events.foldl AgentStateSnapshot.applyEvent state =
      { state with
        goals := events.foldl goalLog.write state.goals
        tasks := events.foldl taskLog.write state.tasks
        observations :=
          state.observations ++
            events.filterMap appendedObservation
        artifacts :=
          events.foldl artifactLog.write state.artifacts
        resources :=
          events.foldl resourceLog.write state.resources
        relationships :=
          state.relationships ++
            events.filterMap observedRelationship
        pendingWake :=
          events.foldl nextWake state.pendingWake } := by
  rw [← foldl_push, ← foldl_push]
  induction events generalizing state with
  | nil => rfl
  | cons event rest ih =>
      rw [List.foldl_cons, ih, applyEvent_eq]
      rfl

theorem agentState_eq_foldl
    {sessionId : String}
    {records : List SessionRecord} :
    agentState sessionId records =
      ((eventsOf records).foldl AgentStateSnapshot.applyEvent
        (.empty sessionId)).withProfile := by
  unfold agentState eventsOf
  rw [List.foldl_map]

/- The agent state of a ledger, field by field. -/
theorem agentState_eq
    {sessionId : String}
    {records : List SessionRecord} :
    agentState sessionId records =
      { AgentStateSnapshot.empty sessionId with
        goals := goalLog.table (eventsOf records)
        tasks := taskLog.table (eventsOf records)
        observations :=
          (eventsOf records).filterMap appendedObservation
        artifacts := artifactLog.table (eventsOf records)
        resources := resourceLog.table (eventsOf records)
        relationships :=
          (eventsOf records).filterMap observedRelationship
        pendingWake :=
          (eventsOf records).foldl nextWake none
        : AgentStateSnapshot }.withProfile := by
  rw [agentState_eq_foldl, foldl_applyEvent]
  rfl

------------------------------------------------------------
-- Last Writers
------------------------------------------------------------

/- The tasks agree on all that a report leaves alone. -/
structure TaskRecord.AsPlanned
    (task plan : TaskRecord) : Prop where
  taskId : task.taskId = plan.taskId
  goalId : task.goalId = plan.goalId
  parentTaskId : task.parentTaskId = plan.parentTaskId
  title : task.title = plan.title
  detail : task.detail = plan.detail
  blockedBy : task.blockedBy = plan.blockedBy

/-
  The task is the last plan of its id, in the status and with
  the assignee of the last later event that reports one.
-/
def TaskReading
    (events : List KernelEvent)
    (task : TaskRecord) :
    Prop :=
  ∃ before plan after,
    events = before ++ .taskPlanned plan :: after ∧
    (∀ other, .taskPlanned other ∈ after →
      other.taskId ≠ task.taskId) ∧
    task.AsPlanned plan ∧
    task.status =
      (after.findSomeRev?
        (about task.taskId reportedStatus)).getD
        plan.status ∧
    task.assignee =
      (after.findSomeRev?
        (about task.taskId claimedFor)).getD plan.assignee

/- The record is the last one of its key. -/
def LastRecord
    {κ α : Type}
    (key : α → κ)
    (read : KernelEvent → Option α)
    (events : List KernelEvent)
    (record : α) :
    Prop :=
  ∃ before event after,
    events = before ++ event :: after ∧
    read event = some record ∧
    key record ∉ (after.filterMap read).map key

/- A state is the last-writer reading of the events. -/
structure LastWriter
    (events : List KernelEvent)
    (state : AgentStateSnapshot) : Prop where
  distinct :
    (state.tasks.map (·.taskId)).Nodup ∧
      (state.goals.map (·.goalId)).Nodup ∧
      (state.artifacts.map (·.artifactId)).Nodup ∧
      (state.resources.map (·.resourceId)).Nodup
  taskIds :
    state.tasks.map (·.taskId) =
      ((events.filterMap plannedTask).map
        (·.taskId)).eraseDups
  goalIds :
    state.goals.map (·.goalId) =
      ((events.filterMap createdGoal).map
        (·.goalId)).eraseDups
  artifactIds :
    state.artifacts.map (·.artifactId) =
      ((events.filterMap producedArtifact).map
        (·.artifactId)).eraseDups
  resourceIds :
    state.resources.map (·.resourceId) =
      ((events.filterMap registeredResource).map
        (·.resourceId)).eraseDups
  tasks : ∀ task ∈ state.tasks, TaskReading events task
  goals : ∀ goal ∈ state.goals,
    LastRecord (·.goalId) createdGoal events goal
  artifacts : ∀ artifact ∈ state.artifacts,
    LastRecord (·.artifactId) producedArtifact events artifact
  resources : ∀ resource ∈ state.resources,
    LastRecord (·.resourceId) registeredResource events
      resource
  observations :
    state.observations = events.filterMap appendedObservation
  relationships :
    state.relationships =
      events.filterMap observedRelationship

section Readings

variable {events before after : List KernelEvent}
variable {task plan : TaskRecord}

theorem revise_asPlanned
    {event : KernelEvent} :
    (taskLog.revise plan event).AsPlanned plan := by
  unfold KeyedLog.revise
  split
  · exact ⟨rfl, rfl, rfl, rfl, rfl, rfl⟩
  · exact ⟨rfl, rfl, rfl, rfl, rfl, rfl⟩

/- No report changes what a plan says beyond its status. -/
theorem foldl_revise_asPlanned :
    (after.foldl taskLog.revise plan).AsPlanned plan := by
  induction after generalizing plan with
  | nil => exact ⟨rfl, rfl, rfl, rfl, rfl, rfl⟩
  | cons event rest ih =>
      have hRest := @ih (taskLog.revise plan event)
      have hHead := @revise_asPlanned plan event
      exact
        { taskId := hRest.taskId.trans hHead.taskId
          goalId := hRest.goalId.trans hHead.goalId
          parentTaskId :=
            hRest.parentTaskId.trans hHead.parentTaskId
          title := hRest.title.trans hHead.title
          detail := hRest.detail.trans hHead.detail
          blockedBy := hRest.blockedBy.trans hHead.blockedBy }

/- A task of the table is read off its events. -/
theorem taskReading_of_mem
    (hMem : task ∈ taskLog.table events) :
    TaskReading events task := by
  rcases taskLog.writtenBy_of_mem hMem with
    ⟨before, event, after, plan, hEvents, hPlan, hKey, hLast,
      hTask⟩
  have hEvent := plannedTask_eq_some hPlan
  subst hEvent
  have hStatus := @KeyedLog.read_foldl_revise _ _ _ _ _
    taskLog after plan (·.status) reportedStatus
    fun _ _ => rfl
  have hAssignee := @KeyedLog.read_foldl_revise _ _ _ _ _
    taskLog after plan (·.assignee) claimedFor
    fun _ _ => rfl
  rw [← hTask] at hStatus hAssignee
  have hPlanned : task.AsPlanned plan := by
    rw [hTask]
    exact foldl_revise_asPlanned
  refine ⟨before, plan, after, hEvents, ?_, hPlanned, ?_, ?_⟩
  · intro other hOther hId
    apply hLast
    refine List.mem_map.mpr ⟨other, ?_, hId⟩
    exact List.mem_filterMap.mpr ⟨_, hOther, rfl⟩
  · rw [hPlanned.taskId]
    exact hStatus
  · rw [hPlanned.taskId]
    exact hAssignee

/- A record of a table of puts is the last of its key. -/
theorem lastRecord_of_mem
    {κ α : Type}
    [DecidableEq κ]
    {key : α → κ}
    {read : KernelEvent → Option α}
    {record : α}
    (hMem : record ∈ (KeyedLog.ofPuts key read).table events) :
    LastRecord key read events record := by
  rcases KeyedLog.writtenBy_of_mem hMem with
    ⟨before, event, after, value, hEvents, hRead, _, hLast,
      hRecord⟩
  have hValue : record = value := by
    rw [hRecord]
    exact KeyedLog.foldl_revise_ofPuts
  subst hValue
  exact ⟨before, event, after, hEvents, hRead, hLast⟩

end Readings

theorem agentState_reading
    (sessionId : String)
    (records : List SessionRecord) :
    LastWriter (eventsOf records)
      (agentState sessionId records) := by
  rw [agentState_eq]
  exact
    { distinct :=
        ⟨taskLog.table_nodup, goalLog.table_nodup,
          artifactLog.table_nodup, resourceLog.table_nodup⟩
      taskIds := taskLog.table_keys
      goalIds := goalLog.table_keys
      artifactIds := artifactLog.table_keys
      resourceIds := resourceLog.table_keys
      tasks := fun _ hMem => taskReading_of_mem hMem
      goals := fun _ hMem => lastRecord_of_mem hMem
      artifacts := fun _ hMem => lastRecord_of_mem hMem
      resources := fun _ hMem => lastRecord_of_mem hMem
      observations := rfl
      relationships := rfl }

/- A report concerns the tasks and nothing else. -/
theorem applyEvent_of_reportedTask
    {state : AgentStateSnapshot}
    {event : KernelEvent}
    {taskId : TaskId}
    (hReports : event.reportedTask = some taskId) :
    state.applyEvent event =
      { state with
        tasks := taskLog.write state.tasks event } := by
  rw [applyEvent_eq]
  cases event <;> first | rfl | cases hReports

/- A report on a task that is not planned changes nothing. -/
theorem applyEvent_of_unplanned
    {sessionId : String}
    {events : List KernelEvent}
    {event : KernelEvent}
    {taskId : TaskId}
    (hReports : event.reportedTask = some taskId)
    (hUnplanned : ∀ plan, .taskPlanned plan ∈ events →
      plan.taskId ≠ taskId) :
    (events.foldl AgentStateSnapshot.applyEvent
        (.empty sessionId)).applyEvent event =
      events.foldl AgentStateSnapshot.applyEvent
        (.empty sessionId) := by
  have hAbsent : taskId ∉ taskLog.putKeys events := by
    intro hMem
    rcases List.mem_map.mp hMem with ⟨plan, hPlan, hId⟩
    rcases List.mem_filterMap.mp hPlan with
      ⟨other, hOther, hPut⟩
    rw [plannedTask_eq_some hPut] at hOther
    exact hUnplanned plan hOther hId
  have hTasks :
      (events.foldl AgentStateSnapshot.applyEvent
          (.empty sessionId)).tasks =
        taskLog.table events := by
    rw [foldl_applyEvent]
    rfl
  rw [applyEvent_of_reportedTask hReports, hTasks,
    KeyedLog.write_table_of_absent hReports hAbsent, ← hTasks]

theorem eventsOf_append
    {before after : List SessionRecord} :
    eventsOf (before ++ after) =
      eventsOf before ++ eventsOf after := by
  unfold eventsOf
  rw [List.filterMap_append, List.map_append]

/-
  The agent state of a ledger is the last-writer reading of
  its kernel events, and an event that reports on a task that
  has not been planned changes nothing.
-/
theorem agentState_lastWriter
    (sessionId : String)
    (records : List SessionRecord) :
    LastWriter (eventsOf records)
        (agentState sessionId records) ∧
      ∀ (before after : List SessionRecord)
        (event : KernelEventRecord) (taskId : TaskId),
        records = before ++ .kernelEvent event :: after →
        event.event.reportedTask = some taskId →
        (∀ plan, .taskPlanned plan ∈ eventsOf before →
          plan.taskId ≠ taskId) →
        agentState sessionId records =
          agentState sessionId (before ++ after) := by
  refine ⟨agentState_reading sessionId records, ?_⟩
  intro before after event taskId hRecords hReports hUnplanned
  subst hRecords
  have hEvents : eventsOf (.kernelEvent event :: after) =
      event.event :: eventsOf after :=
    rfl
  rw [agentState_eq_foldl, agentState_eq_foldl]
  rw [eventsOf_append, eventsOf_append, hEvents,
    List.foldl_append, List.foldl_append, List.foldl_cons,
    applyEvent_of_unplanned hReports hUnplanned]

end RainEngine
