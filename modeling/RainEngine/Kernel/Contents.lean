import RainEngine.Kernel.Ledger

/-
  This file defines what the kernel tells the provider: the
  message list built from the ledger, and the texts it forms
  on the way.

  What the standard library and derived formatting print is
  a parameter, the `Rendering`.

  Key definitions include:
    * `Rendering`
    * `classifyTriggerIntent`
    * `buildTriggerParts`
    * `buildProviderContents`
    * `ProviderRequest`
-/

namespace RainEngine

/- How library code prints and encodes kernel values. -/
structure Rendering where
  debugRecord : SessionRecord → String
  debugTime : SystemTime → String
  toLowercase : String → String
  fixed : Nat → F64 → String
  recordsValue : List SessionRecord → Json

------------------------------------------------------------
-- Derived Debug Names
------------------------------------------------------------

def StopReason.debug : StopReason → String
| .responded => "Responded"
| .yielded => "Yielded"
| .maxStepsReached => "MaxStepsReached"
| .deadlineExceeded => "DeadlineExceeded"
| .cancelled => "Cancelled"
| .providerFailure => "ProviderFailure"
| .storageFailure => "StorageFailure"
| .policyAborted => "PolicyAborted"
| .suspended => "Suspended"
| .delegated => "Delegated"

def ApprovalDecision.debug : ApprovalDecision → String
| .approved => "Approved"
| .rejected => "Rejected"

def SkillBackendKind.debug : SkillBackendKind → String
| .wasm => "Wasm"
| .native => "Native"

------------------------------------------------------------
-- Trigger Intents
------------------------------------------------------------

/- The intent of a message, by the words it contains. -/
def classifyText
    (rendering : Rendering)
    (content : String) :
    String :=
  let lowered := rendering.toLowercase content
  if containsText lowered "approve" ||
      containsText lowered "permission" then
    "approval_or_permission"
  else if containsText lowered "fix" ||
      containsText lowered "change" ||
      containsText lowered "write" then
    "task_execution"
  else if containsText lowered "what" ||
      containsText lowered "why" ||
      containsText lowered "how" then
    "question_answering"
  else "conversation"

def classifyTriggerIntent
    (rendering : Rendering) :
    AgentTrigger → String
| .externalEvent source _ _ => "external_event:" ++ source
| .scheduledWake _ _ _ => "scheduled_wake"
| .humanInput _ content _ => classifyText rendering content
| .message _ content _ => classifyText rendering content
| .systemObservation source _ _ =>
    "system_observation:" ++ source
| .webhook source _ _ => "webhook:" ++ source
| .ruleTrigger ruleId _ _ => "rule:" ++ ruleId
| .proactiveHeartbeat _ _ => "heartbeat"
| .approval _ decision _ => "approval:" ++ decision.debug
| .delegationResult _ _ _ => "delegation_result"

------------------------------------------------------------
-- Provider Messages
------------------------------------------------------------

inductive ProviderRole where
  | system
  | user
  | assistant
  | tool
deriving DecidableEq

structure MultimodalPayload where
  mimeType : String
  fileName : Option String
  data : List UInt8

inductive ProviderContentPart where
  | text (text : String)
  | json (value : Json)
  | inlineData (payload : MultimodalPayload)
  | attachment (attachment : AttachmentRef)
  | toolResult (result : ToolResultRecord)

structure ProviderMessage where
  role : ProviderRole
  parts : List ProviderContentPart

/- The JSON of a planned call, as it is serialized. -/
def PlannedSkillCall.toValue (call : PlannedSkillCall) : Json :=
  .object
    [("call_id", .string call.callId),
      ("name", .string call.name),
      ("args", call.args),
      ("priority", .int call.priority),
      ("depends_on", .strings call.dependsOn),
      ("retry_policy", .object
        [("policy", .object
          [("max_attempts",
              .nat call.retryPolicy.policy.maxAttempts),
            ("initial_interval_ms",
              .nat call.retryPolicy.policy.initialIntervalMs),
            ("backoff_multiplier",
              .float
                call.retryPolicy.policy.backoffMultiplier),
            ("max_interval_ms",
              .nat call.retryPolicy.policy.maxIntervalMs)])]),
      ("dry_run", .bool call.dryRun)]

def buildTriggerParts
    (rendering : Rendering) :
    AgentTrigger → List ProviderContentPart
| .externalEvent source payload attachments =>
    [.text ("external event source: " ++ source),
      .json payload] ++ attachments.map .attachment
| .scheduledWake wakeId dueAt reason =>
    [.text ("scheduled wake " ++ wakeId ++ " due at " ++
      rendering.debugTime dueAt ++ ": " ++ reason)]
| .humanInput actorId content attachments =>
    [.text ("human actor: " ++ actorId), .text content] ++
      attachments.map .attachment
| .systemObservation source observation attachments =>
    [.text ("system observation source: " ++ source),
      .json observation] ++ attachments.map .attachment
| .webhook source payload attachments =>
    [.text ("webhook source: " ++ source), .json payload] ++
      attachments.map .attachment
| .ruleTrigger ruleId context attachments =>
    [.text ("rule trigger: " ++ ruleId), .json context] ++
      attachments.map .attachment
| .proactiveHeartbeat timestamp attachments =>
    .text ("heartbeat timestamp: " ++ toString timestamp) ::
      attachments.map .attachment
| .message userId content attachments =>
    [.text ("user_id: " ++ userId), .text content] ++
      attachments.map .attachment
| .approval resumeToken decision metadata =>
    [.text ("approval for resume token " ++ resumeToken ++
        ": " ++ decision.debug),
      .json metadata]
| .delegationResult correlationId payload metadata =>
    [.text ("delegation result for correlation " ++
        correlationId),
      .json payload, .json metadata]

/- The newest intent recorded for a trigger. -/
def intentByTrigger
    (history : List SessionRecord)
    (triggerId : String) :
    Option String :=
  history.findSomeRev? fun record =>
    match record with
    | .trigger trigger =>
        if trigger.triggerId = triggerId then trigger.intent
        else none
    | .triggerIntent intent =>
        if intent.triggerId = triggerId then
          some intent.intent
        else none
    | _ => none

def pagedOutNotice : String :=
  "Notice: Older session history has been paged out to " ++
    "Archival Memory to save space. Use the " ++
    "`MemorySearch` action to retrieve specific past " ++
    "interactions if you need them."

/- The message that stands for one record, if any. -/
def recordMessage
    (rendering : Rendering)
    (history : List SessionRecord) :
    SessionRecord → Option ProviderMessage
| .trigger record =>
    let parts := buildTriggerParts rendering record.trigger
    let intent := record.intent.or
      (intentByTrigger history record.triggerId)
    some
      { role := .user
        parts :=
          match intent with
          | some intent =>
              parts ++ [.text ("Classified intent: " ++ intent)]
          | none => parts }
| .summary record =>
    some
      { role := .assistant
        parts :=
          [.text ("Summary of prior history: " ++
            record.content)] }
| .modelDecision record =>
    match record.action with
    | .respond content =>
        some { role := .assistant, parts := [.text content] }
    | .callSkills calls =>
        some
          { role := .assistant
            parts :=
              [.json (.array
                (calls.map PlannedSkillCall.toValue))] }
    | _ => none
| .toolResult record =>
    some { role := .tool, parts := [.toolResult record] }
| _ => none

/- How many of the newest records reach the prompt. -/
def maxRecentItems : Nat :=
  32

/- The reminder of the plan that is being executed. -/
def activePlanMessage
    (plan : ExecutionPlanRecord) :
    ProviderMessage where
  role := .system
  parts :=
    [.text ("You are currently executing an active, " ++
      "multi-step plan.\n\nOBJECTIVE: " ++ plan.objective ++
      "\n\nYou are on step " ++
      toString (plan.currentStepIndex + 1) ++ " of " ++
      toString plan.steps.length ++
      ".\n\nPlease stay focused on the objective and " ++
      "execute the necessary actions for this specific step.")]

def buildProviderContents
    (rendering : Rendering)
    (trigger : AgentTrigger)
    (history : List SessionRecord)
    (activePlan : Option ExecutionPlanRecord) :
    List ProviderMessage :=
  let truncated := maxRecentItems < history.length
  let recent := history.drop (history.length - maxRecentItems)
  (if truncated then
      [{ role := .system, parts := [.text pagedOutNotice] }]
    else []) ++
    recent.filterMap (recordMessage rendering history) ++
    [{ role := .user
       parts := buildTriggerParts rendering trigger }] ++
    (activePlan.map activePlanMessage).toList

------------------------------------------------------------
-- Provider Requests
------------------------------------------------------------

structure ProviderRequest where
  trigger : AgentTrigger
  context : AgentContextSnapshot
  availableSkills : List SkillDefinition
  config : ProviderRequestConfig
  policy : EnginePolicy
  contents : List ProviderMessage

structure ProviderDecision where
  action : AgentAction
  usage : Option ProviderUsageRecord := none
  cache : Option ProviderCacheRecord := none

inductive ProviderErrorKind where
  | timeout
  | transport
  | rateLimited
  | invalidResponse
  | configuration
  | internal
deriving DecidableEq

structure ProviderError where
  kind : ProviderErrorKind
  message : String
  retryable : Bool
deriving DecidableEq

end RainEngine
