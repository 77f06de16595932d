import RainEngine.Kernel.Types

/-
  This file defines the agent state the kernel derives from
  the kernel events of a ledger, the kernel events a trigger
  gives rise to, and the state delta of a list of events.

  Key definitions include:
    * `upsertByKey`
    * `AgentStateSnapshot`
    * `AgentStateSnapshot.applyEvent`
    * `deriveTriggerKernelEvents`
    * `deriveStateDelta`
    * `extractWakeRequest`
-/

namespace RainEngine

------------------------------------------------------------
-- Agent State
------------------------------------------------------------

structure MemoryPolicy where
  maxRecentItems : Nat := 32
  semanticRetrievalLimit : Nat := 8
  graphHops : Nat := 6

structure EscalationPolicy where
  requireHumanApprovalScopes : List String :=
    ["scope:human_approval"]
  maxAutoDelegations : Nat := 50

structure WakePolicy where
  allowScheduledWakes : Bool := true
  defaultRecheckMs : Nat := 30 * 60 * 1000
  maxPendingWakes : Nat := 8

structure ReviewPolicy where
  requireReviewForNativeSkills : Bool := false
  requireReviewForDelegation : Bool := true
  reviewerScopes : List String := ["scope:human_approval"]

structure AgentProfile where
  agentId : String
  role : String
  defaultScopes : List String
  allowedSkillNames : List String
  goalIds : List GoalId
  memoryPolicy : MemoryPolicy
  wakePolicy : WakePolicy
  reviewPolicy : ReviewPolicy
  escalationPolicy : EscalationPolicy
  configArtifact : Option ArtifactId

structure AgentStateSnapshot where
  agentId : String
  profile : Option AgentProfile
  goals : List GoalRecord
  tasks : List TaskRecord
  observations : List ObservationRecord
  artifacts : List ArtifactRecord
  resources : List ResourceRef
  relationships : List RelationshipEdge
  pendingWake : Option WakeRequestRecord

/- Replace the first item with the value's key, or append. -/
def upsertByKey
    {α κ : Type}
    [DecidableEq κ]
    (items : List α)
    (value : α)
    (key : α → κ) :
    List α :=
  match items with
  | [] => [value]
  | item :: rest =>
      if key item = key value then value :: rest
      else item :: upsertByKey rest value key

/- Change the first task with the given id. -/
def updateTask
    (tasks : List TaskRecord)
    (taskId : TaskId)
    (change : TaskRecord → TaskRecord) :
    List TaskRecord :=
  match tasks with
  | [] => []
  | task :: rest =>
      if task.taskId = taskId then change task :: rest
      else task :: updateTask rest taskId change

namespace AgentStateSnapshot

/- The state before any event. -/
def empty (sessionId : String) : AgentStateSnapshot where
  agentId := sessionId
  profile := none
  goals := []
  tasks := []
  observations := []
  artifacts := []
  resources := []
  relationships := []
  pendingWake := none

/- Set the status of one task. -/
def setTaskStatus
    (state : AgentStateSnapshot)
    (taskId : TaskId)
    (status : TaskStatus) :
    AgentStateSnapshot :=
  { state with
    tasks := updateTask state.tasks taskId
      (fun task => { task with status := status }) }

/- The effect of one kernel event. -/
def applyEvent
    (state : AgentStateSnapshot) :
    KernelEvent → AgentStateSnapshot
| .goalCreated goal =>
    { state with
      goals := upsertByKey state.goals goal (·.goalId) }
| .taskPlanned task =>
    { state with
      tasks := upsertByKey state.tasks task (·.taskId) }
| .taskClaimed taskId assignee =>
    { state with
      tasks := updateTask state.tasks taskId
        (fun task =>
          { task with
            status := .running
            assignee := assignee }) }
| .taskBlocked taskId _ =>
    state.setTaskStatus taskId .blocked
| .taskCompleted taskId _ =>
    state.setTaskStatus taskId .done
| .taskFailed taskId _ =>
    state.setTaskStatus taskId .failed
| .taskAbandoned taskId _ =>
    state.setTaskStatus taskId .abandoned
| .humanInputRequested (some taskId) _ _ =>
    state.setTaskStatus taskId .waitingHuman
| .humanInputRequested none _ _ => state
| .observationAppended observation =>
    { state with
      observations := state.observations ++ [observation] }
| .artifactProduced artifact =>
    { state with
      artifacts :=
        upsertByKey state.artifacts artifact
          (·.artifactId) }
| .wakeRequested wake =>
    { state with pendingWake := some wake }
| .wakeScheduled wake =>
    { state with pendingWake := some wake }
| .wakeCompleted wakeId _ =>
    if state.pendingWake.any (·.wakeId = wakeId) then
      { state with pendingWake := none }
    else state
| .delegationRequested record =>
    { state with
      resources :=
        upsertByKey state.resources
          { resourceId := record.correlationId
            resourceType := "delegation"
            label := record.task.taskType
            externalRef := some record.target.stream }
          (·.resourceId) }
| .delegationResolved _ _ _ => state
| .resourceRegistered resource =>
    { state with
      resources :=
        upsertByKey state.resources resource
          (·.resourceId) }
| .relationshipObserved edge =>
    { state with
      relationships := state.relationships ++ [edge] }
| .memorySearched _ _ => state
| .memoryArchived _ => state

/- Attach the profile, which lists the goals seen. -/
def withProfile
    (state : AgentStateSnapshot) :
    AgentStateSnapshot :=
  { state with
    profile := some
      { agentId := state.agentId
        role := "event-agent"
        defaultScopes := []
        allowedSkillNames := []
        goalIds := state.goals.map (·.goalId)
        memoryPolicy := {}
        wakePolicy := {}
        reviewPolicy := {}
        escalationPolicy := {}
        configArtifact := none } }

end AgentStateSnapshot

------------------------------------------------------------
-- State Deltas
------------------------------------------------------------

structure AgentStateDelta where
  createdGoalIds : List GoalId := []
  updatedTaskIds : List TaskId := []
  observationIds : List ObservationId := []
  artifactIds : List ArtifactId := []
  delegationCorrelationIds : List CorrelationId := []
deriving DecidableEq

namespace AgentStateDelta

def addTask
    (delta : AgentStateDelta)
    (taskId : TaskId) :
    AgentStateDelta :=
  { delta with
    updatedTaskIds := delta.updatedTaskIds ++ [taskId] }

/- What one event adds to a delta. -/
def addEvent
    (delta : AgentStateDelta) :
    KernelEvent → AgentStateDelta
| .goalCreated goal =>
    { delta with
      createdGoalIds :=
        delta.createdGoalIds ++ [goal.goalId] }
| .taskPlanned task => delta.addTask task.taskId
| .taskClaimed taskId _ => delta.addTask taskId
| .taskBlocked taskId _ => delta.addTask taskId
| .taskCompleted taskId _ => delta.addTask taskId
| .taskFailed taskId _ => delta.addTask taskId
| .taskAbandoned taskId _ => delta.addTask taskId
| .humanInputRequested (some taskId) _ _ =>
    delta.addTask taskId
| .humanInputRequested none _ _ => delta
| .observationAppended observation =>
    { delta with
      observationIds :=
        delta.observationIds ++
          [observation.observationId] }
| .artifactProduced artifact =>
    { delta with
      artifactIds :=
        delta.artifactIds ++ [artifact.artifactId] }
| .delegationRequested record =>
    { delta with
      delegationCorrelationIds :=
        delta.delegationCorrelationIds ++
          [record.correlationId] }
| .delegationResolved correlationId _ _ =>
    { delta with
      delegationCorrelationIds :=
        delta.delegationCorrelationIds ++
          [correlationId] }
| .wakeRequested _ => delta
| .wakeScheduled _ => delta
| .wakeCompleted _ _ => delta
| .resourceRegistered _ => delta
| .relationshipObserved _ => delta
| .memorySearched _ _ => delta
| .memoryArchived _ => delta

end AgentStateDelta

def deriveStateDelta
    (events : List KernelEventRecord) :
    AgentStateDelta :=
  events.foldl (fun delta e => delta.addEvent e.event) {}

def extractWakeRequest
    (record : KernelEventRecord) :
    Option WakeRequestRecord :=
  match record.event with
  | .wakeRequested wake => some wake
  | .wakeScheduled wake => some wake
  | _ => none

------------------------------------------------------------
-- Events Derived From A Trigger
------------------------------------------------------------

/- The observation a trigger with content gives rise to. -/
def triggerObservation
    (triggerId source : String)
    (content : Json)
    (attachments : List AttachmentRef) :
    KernelEventRecord where
  eventId := "observation-" ++ triggerId ++ "-0"
  event := .observationAppended
    { observationId := triggerId ++ "-obs-0"
      source := source
      content := content
      attachmentIds := attachments.map (·.attachmentId)
      relatedResources := [] }

def deriveTriggerKernelEvents
    (triggerId : String) :
    AgentTrigger → List KernelEventRecord
| .externalEvent source payload attachments =>
    [triggerObservation triggerId ("external:" ++ source)
      payload attachments]
| .humanInput actorId content attachments =>
    [triggerObservation triggerId ("human:" ++ actorId)
      (.object [("content", .string content)]) attachments]
| .systemObservation source observation attachments =>
    [triggerObservation triggerId ("system:" ++ source)
      observation attachments]
| .webhook source payload attachments =>
    [triggerObservation triggerId ("webhook:" ++ source)
      payload attachments]
| .ruleTrigger ruleId context attachments =>
    [triggerObservation triggerId ("rule:" ++ ruleId)
      context attachments]
| .proactiveHeartbeat timestamp _ =>
    [triggerObservation triggerId "heartbeat"
      (.object [("timestamp", .nat timestamp)]) []]
| .scheduledWake wakeId _ reason =>
    [{ eventId := "wake-completed-" ++ triggerId
       event := .wakeCompleted wakeId reason }]
| .message userId content attachments =>
    [triggerObservation triggerId ("message:" ++ userId)
      (.object [("content", .string content)]) attachments]
| .delegationResult correlationId payload metadata =>
    [{ eventId := "delegation-resolved-" ++ triggerId
       event :=
         .delegationResolved correlationId payload
           metadata }]
| .approval _ _ _ => []

end RainEngine
