import RainEngine.Serde.Codec
import RainEngine.Kernel.Types

/-
  This file writes triggers and kernel events as JSON and
  reads them back: one codec for each data type, with the
  names the source gives its fields and variants. Clock
  readings that the model leaves out are left out here too.

  Key definitions include:
    * `Codec.systemTime`
    * `Codec.agentTrigger`
    * `Codec.triggerRecord`
    * `Codec.kernelEvent`
-/

namespace RainEngine
namespace Codec

------------------------------------------------------------
-- Times
------------------------------------------------------------

def writeTime (time : SystemTime) : Json :=
  .object
    [("secs_since_epoch", .nat (time / 10 ^ 9)),
      ("nanos_since_epoch", .nat (time % 10 ^ 9))]

def readTime (json : Json) : Option SystemTime := do
  let secs ← (json.get "secs_since_epoch").bind readNat
  let nanos ← (json.get "nanos_since_epoch").bind readNat
  pure (secs * 10 ^ 9 + nanos)

theorem readTime_writeTime (time : SystemTime) :
    readTime (writeTime time) = some time :=
  congrArg some (Nat.div_add_mod' time (10 ^ 9))

/- A time, in nanoseconds since the epoch. -/
def systemTime : Codec SystemTime :=
  plain writeTime readTime readTime_writeTime

def writeTimeSet : Bool → Json
| true => writeTime 0
| false => .null

def readTimeSet : Json → Option Bool
| .null => some false
| json => (readTime json).map fun _ => true

/- A time of which only is known whether it is set. -/
def timeSet : Codec Bool :=
  plain writeTimeSet readTimeSet (by
    intro value
    cases value <;> rfl)

------------------------------------------------------------
-- Triggers
------------------------------------------------------------

def blobDescriptor : Codec BlobDescriptor :=
  struct
    (.field "uri" string <|
      .field "size_bytes" nat .nil)
    BlobDescriptor.mk
    (fun value => (value.uri, value.sizeBytes, ()))
    (fun _ => rfl) (fun _ => rfl) (by decide)

def inlineContent :
    Codec (List UInt8 × Unit) :=
  object
    (.field "data" (list byte) .nil)
    (by decide)

def blobContent :
    Codec (BlobDescriptor × Unit) :=
  object
    (.field "descriptor" blobDescriptor .nil)
    (by decide)

def attachmentContentView : AttachmentContent → Variant
| .inline data =>
    .of "Inline" inlineContent (data, ())
| .blob descriptor =>
    .of "Blob" blobContent (descriptor, ())

def attachmentContentRead
    (parse : ℚ → ℚ)
    (payload : Json) :
    String → Option AttachmentContent
| "Inline" =>
    (inlineContent.decode parse payload).map fun t =>
      .inline t.1
| "Blob" =>
    (blobContent.decode parse payload).map fun t =>
      .blob t.1
| _ => none

def attachmentContent : Codec AttachmentContent :=
  tagged attachmentContentView attachmentContentRead (by
    intro parse value
    cases value
    all_goals
      dsimp only [attachmentContentView, attachmentContentRead,
        Variant.of]
      exact map_decode _ (by
        intro one two hSame
        simpa [Prod.ext_iff] using hSame) _)

def attachmentRef : Codec AttachmentRef :=
  struct
    (.field "attachment_id" string <|
      .field "mime_type" string <|
      .optional "file_name" string notNull_string <|
      .field "size_bytes" nat <|
      .field "content" attachmentContent .nil)
    AttachmentRef.mk
    (fun value =>
      (value.attachmentId, value.mimeType, value.fileName,
        value.sizeBytes, value.content, ()))
    (fun _ => rfl) (fun _ => rfl) (by decide)

def approvalDecisionName : ApprovalDecision → String
| .approved => "Approved"
| .rejected => "Rejected"

def approvalDecisionOfName : String → Option ApprovalDecision
| "Approved" => some .approved
| "Rejected" => some .rejected
| _ => none

def approvalDecision : Codec ApprovalDecision :=
  named approvalDecisionName approvalDecisionOfName (by
    intro value
    cases value <;> rfl)

def externalEvent :
    Codec (String × Json × List AttachmentRef × Unit) :=
  object
    (.field "source" string <|
      .field "payload" value <|
      .field "attachments" (list attachmentRef) .nil)
    (by decide)

def scheduledWake :
    Codec (WakeId × SystemTime × String × Unit) :=
  object
    (.field "wake_id" string <|
      .field "due_at" systemTime <|
      .field "reason" string .nil)
    (by decide)

def humanInput :
    Codec (String × String × List AttachmentRef × Unit) :=
  object
    (.field "actor_id" string <|
      .field "content" string <|
      .field "attachments" (list attachmentRef) .nil)
    (by decide)

def systemObservation :
    Codec (String × Json × List AttachmentRef × Unit) :=
  object
    (.field "source" string <|
      .field "observation" value <|
      .field "attachments" (list attachmentRef) .nil)
    (by decide)

def webhook :
    Codec (String × Json × List AttachmentRef × Unit) :=
  object
    (.field "source" string <|
      .field "payload" value <|
      .field "attachments" (list attachmentRef) .nil)
    (by decide)

def ruleTrigger :
    Codec (String × Json × List AttachmentRef × Unit) :=
  object
    (.field "rule_id" string <|
      .field "context" value <|
      .field "attachments" (list attachmentRef) .nil)
    (by decide)

def proactiveHeartbeat :
    Codec (Nat × List AttachmentRef × Unit) :=
  object
    (.field "timestamp" nat <|
      .field "attachments" (list attachmentRef) .nil)
    (by decide)

def message :
    Codec (String × String × List AttachmentRef × Unit) :=
  object
    (.field "user_id" string <|
      .field "content" string <|
      .field "attachments" (list attachmentRef) .nil)
    (by decide)

def approval :
    Codec (ResumeToken × ApprovalDecision × Json × Unit) :=
  object
    (.field "resume_token" string <|
      .field "decision" approvalDecision <|
      .field "metadata" value .nil)
    (by decide)

def delegationResult :
    Codec (CorrelationId × Json × Json × Unit) :=
  object
    (.field "correlation_id" string <|
      .field "payload" value <|
      .field "metadata" value .nil)
    (by decide)

def agentTriggerView : AgentTrigger → Variant
| .externalEvent source payload attachments =>
    .of "ExternalEvent" externalEvent
      (source, payload, attachments, ())
| .scheduledWake wakeId dueAt reason =>
    .of "ScheduledWake" scheduledWake
      (wakeId, dueAt, reason, ())
| .humanInput actorId content attachments =>
    .of "HumanInput" humanInput
      (actorId, content, attachments, ())
| .systemObservation source observation attachments =>
    .of "SystemObservation" systemObservation
      (source, observation, attachments, ())
| .webhook source payload attachments =>
    .of "Webhook" webhook (source, payload, attachments, ())
| .ruleTrigger ruleId context attachments =>
    .of "RuleTrigger" ruleTrigger
      (ruleId, context, attachments, ())
| .proactiveHeartbeat timestamp attachments =>
    .of "ProactiveHeartbeat" proactiveHeartbeat
      (timestamp, attachments, ())
| .message userId content attachments =>
    .of "Message" message (userId, content, attachments, ())
| .approval token decision metadata =>
    .of "Approval" approval (token, decision, metadata, ())
| .delegationResult correlation payload metadata =>
    .of "DelegationResult" delegationResult
      (correlation, payload, metadata, ())

def agentTriggerRead
    (parse : ℚ → ℚ)
    (payload : Json) :
    String → Option AgentTrigger
| "ExternalEvent" =>
    (externalEvent.decode parse payload).map fun t =>
      .externalEvent t.1 t.2.1 t.2.2.1
| "ScheduledWake" =>
    (scheduledWake.decode parse payload).map fun t =>
      .scheduledWake t.1 t.2.1 t.2.2.1
| "HumanInput" =>
    (humanInput.decode parse payload).map fun t =>
      .humanInput t.1 t.2.1 t.2.2.1
| "SystemObservation" =>
    (systemObservation.decode parse payload).map fun t =>
      .systemObservation t.1 t.2.1 t.2.2.1
| "Webhook" =>
    (webhook.decode parse payload).map fun t =>
      .webhook t.1 t.2.1 t.2.2.1
| "RuleTrigger" =>
    (ruleTrigger.decode parse payload).map fun t =>
      .ruleTrigger t.1 t.2.1 t.2.2.1
| "ProactiveHeartbeat" =>
    (proactiveHeartbeat.decode parse payload).map fun t =>
      .proactiveHeartbeat t.1 t.2.1
| "Message" =>
    (message.decode parse payload).map fun t =>
      .message t.1 t.2.1 t.2.2.1
| "Approval" =>
    (approval.decode parse payload).map fun t =>
      .approval t.1 t.2.1 t.2.2.1
| "DelegationResult" =>
    (delegationResult.decode parse payload).map fun t =>
      .delegationResult t.1 t.2.1 t.2.2.1
| _ => none

def agentTrigger : Codec AgentTrigger :=
  tagged agentTriggerView agentTriggerRead (by
    intro parse value
    cases value
    all_goals
      dsimp only [agentTriggerView, agentTriggerRead,
        Variant.of]
      exact map_decode _ (by
        intro one two hSame
        simpa [Prod.ext_iff] using hSame) _)

def triggerRecord : Codec TriggerRecord :=
  struct
    (.field "trigger_id" string <|
      .field "session_id" string <|
      .optional "idempotency_key" string notNull_string <|
      .field "trigger" agentTrigger <|
      .optional "intent" string notNull_string .nil)
    TriggerRecord.mk
    (fun value =>
      (value.triggerId, value.sessionId,
        value.idempotencyKey, value.trigger, value.intent,
        ()))
    (fun _ => rfl) (fun _ => rfl) (by decide)

def triggerIntentRecord : Codec TriggerIntentRecord :=
  struct
    (.field "trigger_id" string <|
      .field "intent" string .nil)
    TriggerIntentRecord.mk
    (fun value => (value.triggerId, value.intent, ()))
    (fun _ => rfl) (fun _ => rfl) (by decide)

------------------------------------------------------------
-- Agent State And Kernel Events
------------------------------------------------------------

def resourceRef : Codec ResourceRef :=
  struct
    (.field "resource_id" string <|
      .field "resource_type" string <|
      .field "label" string <|
      .optional "external_ref" string notNull_string .nil)
    ResourceRef.mk
    (fun value =>
      (value.resourceId, value.resourceType, value.label,
        value.externalRef, ()))
    (fun _ => rfl) (fun _ => rfl) (by decide)

def relationshipEdge : Codec RelationshipEdge :=
  struct
    (.field "from_resource_id" string <|
      .field "to_resource_id" string <|
      .field "relation" string <|
      .field "observed_at" systemTime .nil)
    RelationshipEdge.mk
    (fun value =>
      (value.fromResourceId, value.toResourceId,
        value.relation, value.observedAt, ()))
    (fun _ => rfl) (fun _ => rfl) (by decide)

def goalStatusName : GoalStatus → String
| .active => "Active"
| .blocked => "Blocked"
| .completed => "Completed"
| .cancelled => "Cancelled"

def goalStatusOfName : String → Option GoalStatus
| "Active" => some .active
| "Blocked" => some .blocked
| "Completed" => some .completed
| "Cancelled" => some .cancelled
| _ => none

def goalStatus : Codec GoalStatus :=
  named goalStatusName goalStatusOfName (by
    intro value
    cases value <;> rfl)

def goalRecord : Codec GoalRecord :=
  struct
    (.field "goal_id" string <|
      .field "title" string <|
      .optional "detail" string notNull_string <|
      .field "status" goalStatus <|
      .optional "parent_goal_id" string notNull_string .nil)
    GoalRecord.mk
    (fun value =>
      (value.goalId, value.title, value.detail, value.status,
        value.parentGoalId, ()))
    (fun _ => rfl) (fun _ => rfl) (by decide)

def taskStatusName : TaskStatus → String
| .pending => "Pending"
| .ready => "Ready"
| .running => "Running"
| .blocked => "Blocked"
| .waitingHuman => "WaitingHuman"
| .done => "Done"
| .failed => "Failed"
| .abandoned => "Abandoned"

def taskStatusOfName : String → Option TaskStatus
| "Pending" => some .pending
| "Ready" => some .ready
| "Running" => some .running
| "Blocked" => some .blocked
| "WaitingHuman" => some .waitingHuman
| "Done" => some .done
| "Failed" => some .failed
| "Abandoned" => some .abandoned
| _ => none

def taskStatus : Codec TaskStatus :=
  named taskStatusName taskStatusOfName (by
    intro value
    cases value <;> rfl)

def taskRecord : Codec TaskRecord :=
  struct
    (.field "task_id" string <|
      .optional "goal_id" string notNull_string <|
      .optional "parent_task_id" string notNull_string <|
      .field "title" string <|
      .optional "detail" string notNull_string <|
      .field "status" taskStatus <|
      .optional "assignee" string notNull_string <|
      .field "blocked_by" (list string) .nil)
    TaskRecord.mk
    (fun value =>
      (value.taskId, value.goalId, value.parentTaskId,
        value.title, value.detail, value.status,
        value.assignee, value.blockedBy, ()))
    (fun _ => rfl) (fun _ => rfl) (by decide)

def observationRecord : Codec ObservationRecord :=
  struct
    (.field "observation_id" string <|
      .field "source" string <|
      .field "content" value <|
      .field "attachment_ids" (list string) <|
      .field "related_resources" (list resourceRef) .nil)
    ObservationRecord.mk
    (fun value =>
      (value.observationId, value.source, value.content,
        value.attachmentIds, value.relatedResources, ()))
    (fun _ => rfl) (fun _ => rfl) (by decide)

def artifactRecord : Codec ArtifactRecord :=
  struct
    (.field "artifact_id" string <|
      .field "name" string <|
      .field "mime_type" string <|
      .optional "descriptor" blobDescriptor notNull_struct <|
      .field "metadata" value .nil)
    ArtifactRecord.mk
    (fun value =>
      (value.artifactId, value.name, value.mimeType,
        value.descriptor, value.metadata, ()))
    (fun _ => rfl) (fun _ => rfl) (by decide)

def wakeRequestRecord : Codec WakeRequestRecord :=
  struct
    (.field "wake_id" string <|
      .field "requested_at" systemTime <|
      .field "due_at" systemTime <|
      .field "reason" string <|
      .optional "task_id" string notNull_string .nil)
    WakeRequestRecord.mk
    (fun value =>
      (value.wakeId, value.requestedAt, value.dueAt,
        value.reason, value.taskId, ()))
    (fun _ => rfl) (fun _ => rfl) (by decide)

def delegationTarget : Codec DelegationTarget :=
  struct
    (.field "stream" string <|
      .optional "worker" string notNull_string .nil)
    DelegationTarget.mk
    (fun value => (value.stream, value.worker, ()))
    (fun _ => rfl) (fun _ => rfl) (by decide)

def delegationTask : Codec DelegationTask :=
  struct
    (.field "task_type" string <|
      .field "payload" value .nil)
    DelegationTask.mk
    (fun value => (value.taskType, value.payload, ()))
    (fun _ => rfl) (fun _ => rfl) (by decide)

def delegationRecord : Codec DelegationRecord :=
  struct
    (.field "correlation_id" string <|
      .field "trigger_id" string <|
      .field "target" delegationTarget <|
      .field "task" delegationTask <|
      .field "resume_token" string .nil)
    DelegationRecord.mk
    (fun value =>
      (value.correlationId, value.triggerId, value.target,
        value.task, value.resumeToken, ()))
    (fun _ => rfl) (fun _ => rfl) (by decide)

def taskClaimed :
    Codec (TaskId × Option String × Unit) :=
  object
    (.field "task_id" string <|
      .optional "assignee" string notNull_string .nil)
    (by decide)

/- A task that is blocked, has failed or is abandoned. -/
def taskReason :
    Codec (TaskId × String × Unit) :=
  object
    (.field "task_id" string <|
      .field "reason" string .nil)
    (by decide)

def taskCompleted :
    Codec (TaskId × List ArtifactId × Unit) :=
  object
    (.field "task_id" string <|
      .field "artifact_ids" (list string) .nil)
    (by decide)

def humanInputRequested :
    Codec (Option TaskId × String × ResumeToken × Unit) :=
  object
    (.optional "task_id" string notNull_string <|
      .field "prompt" string <|
      .field "resume_token" string .nil)
    (by decide)

def wakeCompleted :
    Codec (WakeId × String × Unit) :=
  object
    (.field "wake_id" string <|
      .field "reason" string .nil)
    (by decide)

def delegationResolved :
    Codec (CorrelationId × Json × Json × Unit) :=
  object
    (.field "correlation_id" string <|
      .field "payload" value <|
      .field "metadata" value .nil)
    (by decide)

def memorySearched :
    Codec (String × Nat × Unit) :=
  object
    (.field "query" string <|
      .field "limit" nat .nil)
    (by decide)

def memoryArchived :
    Codec (String × Unit) :=
  object
    (.field "content" string .nil)
    (by decide)

def kernelEventView : KernelEvent → Variant
| .goalCreated record =>
    .of "GoalCreated" goalRecord record
| .taskPlanned record =>
    .of "TaskPlanned" taskRecord record
| .taskClaimed taskId assignee =>
    .of "TaskClaimed" taskClaimed (taskId, assignee, ())
| .taskBlocked taskId reason =>
    .of "TaskBlocked" taskReason (taskId, reason, ())
| .taskCompleted taskId artifactIds =>
    .of "TaskCompleted" taskCompleted (taskId, artifactIds, ())
| .taskFailed taskId reason =>
    .of "TaskFailed" taskReason (taskId, reason, ())
| .taskAbandoned taskId reason =>
    .of "TaskAbandoned" taskReason (taskId, reason, ())
| .humanInputRequested taskId prompt token =>
    .of "HumanInputRequested" humanInputRequested
      (taskId, prompt, token, ())
| .observationAppended record =>
    .of "ObservationAppended" observationRecord record
| .artifactProduced record =>
    .of "ArtifactProduced" artifactRecord record
| .wakeRequested record =>
    .of "WakeRequested" wakeRequestRecord record
| .wakeScheduled record =>
    .of "WakeScheduled" wakeRequestRecord record
| .wakeCompleted wakeId reason =>
    .of "WakeCompleted" wakeCompleted (wakeId, reason, ())
| .delegationRequested record =>
    .of "DelegationRequested" delegationRecord record
| .delegationResolved correlation payload metadata =>
    .of "DelegationResolved" delegationResolved
      (correlation, payload, metadata, ())
| .resourceRegistered record =>
    .of "ResourceRegistered" resourceRef record
| .relationshipObserved record =>
    .of "RelationshipObserved" relationshipEdge record
| .memorySearched query limit =>
    .of "MemorySearched" memorySearched (query, limit, ())
| .memoryArchived content =>
    .of "MemoryArchived" memoryArchived (content, ())

def kernelEventRead
    (parse : ℚ → ℚ)
    (payload : Json) :
    String → Option KernelEvent
| "GoalCreated" =>
    (goalRecord.decode parse payload).map .goalCreated
| "TaskPlanned" =>
    (taskRecord.decode parse payload).map .taskPlanned
| "TaskClaimed" =>
    (taskClaimed.decode parse payload).map fun t =>
      .taskClaimed t.1 t.2.1
| "TaskBlocked" =>
    (taskReason.decode parse payload).map fun t =>
      .taskBlocked t.1 t.2.1
| "TaskCompleted" =>
    (taskCompleted.decode parse payload).map fun t =>
      .taskCompleted t.1 t.2.1
| "TaskFailed" =>
    (taskReason.decode parse payload).map fun t =>
      .taskFailed t.1 t.2.1
| "TaskAbandoned" =>
    (taskReason.decode parse payload).map fun t =>
      .taskAbandoned t.1 t.2.1
| "HumanInputRequested" =>
    (humanInputRequested.decode parse payload).map fun t =>
      .humanInputRequested t.1 t.2.1 t.2.2.1
| "ObservationAppended" =>
    (observationRecord.decode parse payload).map
      .observationAppended
| "ArtifactProduced" =>
    (artifactRecord.decode parse payload).map .artifactProduced
| "WakeRequested" =>
    (wakeRequestRecord.decode parse payload).map .wakeRequested
| "WakeScheduled" =>
    (wakeRequestRecord.decode parse payload).map .wakeScheduled
| "WakeCompleted" =>
    (wakeCompleted.decode parse payload).map fun t =>
      .wakeCompleted t.1 t.2.1
| "DelegationRequested" =>
    (delegationRecord.decode parse payload).map
      .delegationRequested
| "DelegationResolved" =>
    (delegationResolved.decode parse payload).map fun t =>
      .delegationResolved t.1 t.2.1 t.2.2.1
| "ResourceRegistered" =>
    (resourceRef.decode parse payload).map .resourceRegistered
| "RelationshipObserved" =>
    (relationshipEdge.decode parse payload).map
      .relationshipObserved
| "MemorySearched" =>
    (memorySearched.decode parse payload).map fun t =>
      .memorySearched t.1 t.2.1
| "MemoryArchived" =>
    (memoryArchived.decode parse payload).map fun t =>
      .memoryArchived t.1
| _ => none

def kernelEvent : Codec KernelEvent :=
  tagged kernelEventView kernelEventRead (by
    intro parse value
    cases value
    all_goals
      dsimp only [kernelEventView, kernelEventRead,
        Variant.of]
      exact map_decode _ (by
        intro one two hSame
        simpa [Prod.ext_iff] using hSame) _)

def kernelEventRecord : Codec KernelEventRecord :=
  struct
    (.field "event_id" string <|
      .field "event" kernelEvent .nil)
    KernelEventRecord.mk
    (fun value => (value.eventId, value.event, ()))
    (fun _ => rfl) (fun _ => rfl) (by decide)

end Codec
end RainEngine
