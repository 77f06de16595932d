import RainEngine.Kernel.Ledger

/-
  This file defines what a ledger store takes and returns:
  the kind and the columns of a record, new and stored
  records, queries, and their answers.

  The time of a record is kept beside the record, as the
  store keeps it: the kernel's records leave it out.

  Key definitions include:
    * `SessionRecordKind`
    * `NewSessionRecord`
    * `StoredSessionRecord`
    * `SessionListQuery`
    * `RecordPageQuery`
    * `RecordPage`
    * `SessionSnapshot`
    * `SessionSummary`

  Key theorems include:
    * `SessionRecordKind.parse_asStr`
-/

namespace RainEngine.Stores

------------------------------------------------------------
-- Record Kinds
------------------------------------------------------------

inductive SessionRecordKind where
  | trigger
  | triggerIntent
  | kernelEvent
  | modelDecision
  | deliberation
  | toolExecutionGraph
  | toolNodeCheckpoint
  | skillInputValidation
  | toolCall
  | toolResult
  | pendingApproval
  | approvalResolution
  | delegation
  | coordinationClaim
  | providerUsage
  | providerCache
  | reflection
  | policyTuning
  | strategyPreference
  | toolPerformance
  | profilePatch
  | executionPlan
  | summary
  | outcome
deriving DecidableEq

namespace SessionRecordKind

def asStr : SessionRecordKind → String
| .trigger => "trigger"
| .triggerIntent => "trigger_intent"
| .kernelEvent => "kernel_event"
| .modelDecision => "model_decision"
| .deliberation => "deliberation"
| .toolExecutionGraph => "tool_execution_graph"
| .toolNodeCheckpoint => "tool_node_checkpoint"
| .skillInputValidation => "skill_input_validation"
| .toolCall => "tool_call"
| .toolResult => "tool_result"
| .pendingApproval => "pending_approval"
| .approvalResolution => "approval_resolution"
| .delegation => "delegation"
| .coordinationClaim => "coordination_claim"
| .providerUsage => "provider_usage"
| .providerCache => "provider_cache"
| .reflection => "reflection"
| .policyTuning => "policy_tuning"
| .strategyPreference => "strategy_preference"
| .toolPerformance => "tool_performance"
| .profilePatch => "profile_patch"
| .executionPlan => "execution_plan"
| .summary => "summary"
| .outcome => "outcome"

def parse : String → Option SessionRecordKind
| "trigger" => some .trigger
| "trigger_intent" => some .triggerIntent
| "kernel_event" => some .kernelEvent
| "model_decision" => some .modelDecision
| "deliberation" => some .deliberation
| "tool_execution_graph" => some .toolExecutionGraph
| "tool_node_checkpoint" => some .toolNodeCheckpoint
| "skill_input_validation" => some .skillInputValidation
| "tool_call" => some .toolCall
| "tool_result" => some .toolResult
| "pending_approval" => some .pendingApproval
| "approval_resolution" => some .approvalResolution
| "delegation" => some .delegation
| "coordination_claim" => some .coordinationClaim
| "provider_usage" => some .providerUsage
| "provider_cache" => some .providerCache
| "reflection" => some .reflection
| "policy_tuning" => some .policyTuning
| "strategy_preference" => some .strategyPreference
| "tool_performance" => some .toolPerformance
| "profile_patch" => some .profilePatch
| "execution_plan" => some .executionPlan
| "summary" => some .summary
| "outcome" => some .outcome
| _ => none

/- Every kind is read back from its text. -/
@[simp] theorem parse_asStr (kind : SessionRecordKind) :
    parse kind.asStr = some kind := by
  cases kind <;> rfl

/- Different kinds have different texts. -/
theorem asStr_injective {kind other : SessionRecordKind}
    (hSame : kind.asStr = other.asStr) :
    kind = other := by
  have hParse := parse_asStr kind
  rw [hSame, parse_asStr] at hParse
  exact (Option.some.inj hParse).symm

end SessionRecordKind

def kind : SessionRecord → SessionRecordKind
| .trigger _ => .trigger
| .triggerIntent _ => .triggerIntent
| .kernelEvent _ => .kernelEvent
| .modelDecision _ => .modelDecision
| .deliberation _ => .deliberation
| .toolExecutionGraph _ => .toolExecutionGraph
| .toolNodeCheckpoint _ => .toolNodeCheckpoint
| .skillInputValidation _ => .skillInputValidation
| .toolCall _ => .toolCall
| .toolResult _ => .toolResult
| .pendingApproval _ => .pendingApproval
| .approvalResolution _ => .approvalResolution
| .delegation _ => .delegation
| .coordinationClaim _ => .coordinationClaim
| .providerUsage _ => .providerUsage
| .providerCache _ => .providerCache
| .reflection _ => .reflection
| .policyTuning _ => .policyTuning
| .strategyPreference _ => .strategyPreference
| .toolPerformance _ => .toolPerformance
| .profilePatch _ => .profilePatch
| .executionPlan _ => .executionPlan
| .summary _ => .summary
| .outcome _ => .outcome

def triggerId : SessionRecord → Option String
| .trigger record => some record.triggerId
| .triggerIntent record => some record.triggerId
| .deliberation record => some record.triggerId
| .toolExecutionGraph record => some record.triggerId
| .pendingApproval record => some record.triggerId
| .delegation record => some record.triggerId
| .reflection record => some record.triggerId
| .outcome record => some record.triggerId
| _ => none

def idempotencyKey : SessionRecord → Option String
| .trigger record => record.idempotencyKey
| .outcome record => record.idempotencyKey
| _ => none

------------------------------------------------------------
-- New And Stored Records
------------------------------------------------------------

structure NewSessionRecord where
  sessionId : String
  occurredAtMs : Int
  recordKind : SessionRecordKind
  triggerId : Option String
  idempotencyKey : Option String
  record : SessionRecord

/- Every caller of a store makes its records this way. -/
def NewSessionRecord.fromRecord
    (sessionId : String)
    (occurredAtMs : Int)
    (record : SessionRecord) :
    NewSessionRecord where
  sessionId := sessionId
  occurredAtMs := occurredAtMs
  recordKind := kind record
  triggerId := Stores.triggerId record
  idempotencyKey := Stores.idempotencyKey record
  record := record

structure StoredSessionRecord where
  sessionId : String
  sequenceNo : Int
  occurredAtMs : Int
  recordKind : SessionRecordKind
  triggerId : Option String
  idempotencyKey : Option String
  record : SessionRecord

/- The record under a sequence number. -/
def NewSessionRecord.stored
    (record : NewSessionRecord)
    (sequenceNo : Int) :
    StoredSessionRecord where
  sessionId := record.sessionId
  sequenceNo := sequenceNo
  occurredAtMs := record.occurredAtMs
  recordKind := record.recordKind
  triggerId := record.triggerId
  idempotencyKey := record.idempotencyKey
  record := record.record

/- The record without its sequence number. -/
def StoredSessionRecord.entry
    (stored : StoredSessionRecord) :
    NewSessionRecord where
  sessionId := stored.sessionId
  occurredAtMs := stored.occurredAtMs
  recordKind := stored.recordKind
  triggerId := stored.triggerId
  idempotencyKey := stored.idempotencyKey
  record := stored.record

@[simp] theorem NewSessionRecord.stored_entry
    (record : NewSessionRecord)
    (sequenceNo : Int) :
    (record.stored sequenceNo).entry = record :=
  rfl

------------------------------------------------------------
-- Queries And Answers
------------------------------------------------------------

structure SessionListQuery where
  offset : Nat := 0
  limit : Nat := 50
  sinceMs : Option Int := none
  untilMs : Option Int := none

structure RecordPageQuery where
  sessionId : String
  offset : Nat := 0
  limit : Nat := 100
  sinceMs : Option Int := none
  untilMs : Option Int := none

structure SessionSummary where
  sessionId : String
  firstRecordedAtMs : Int
  lastRecordedAtMs : Int
  recordCount : Nat
deriving DecidableEq

structure RecordPage where
  sessionId : String
  records : List StoredSessionRecord
  nextOffset : Option Nat

structure SessionSnapshot where
  sessionId : String
  records : List SessionRecord
  lastSequenceNo : Option Int
  latestOutcome : Option OutcomeRecord

end RainEngine.Stores
