import RainEngine.Kernel.Contents
import RainEngine.Effects.Program

/-
  This file defines what the kernel asks of its host while it
  advances one session, and the machine that answers it: the
  memory store, the projection cache, the provider, the
  planner, the skill executors, fresh identifiers and clocks.

  Every answer the host may give is allowed: an append or a
  read of the store may fail at any time, the provider and
  the planner answer anything, and a skill may panic.

  Key definitions include:
    * `Op`
    * `Answer`
    * `World`
    * `host`
    * `reliable`
    * `EngineM`
-/

namespace RainEngine

open Effects

------------------------------------------------------------
-- Errors And Results
------------------------------------------------------------

structure MemoryError where
  message : String
deriving DecidableEq

/- `blob` also carries the failure to join a tool task. -/
inductive EngineError where
  | memory (error : MemoryError)
  | blob (message : String)
  | provider (message : String)
deriving DecidableEq

structure SkillExecutionError where
  kind : SkillFailureKind
  message : String
deriving DecidableEq

structure SkillInvocation where
  callId : String
  manifest : SkillManifest
  args : Json
  context : AgentContextSnapshot
  dryRun : Bool

/-
  One run of an executor returns, or panics and leaves the
  text of the join error.
-/
inductive SkillAnswer where
  | returned (output : Except SkillExecutionError Json)
  | panicked (joinError : String)

/- A finished tool task: its result, or its join error. -/
abbrev ToolTask : Type :=
  Except String ToolResultRecord

structure PlannerOutput where
  events : List KernelEvent := []
  proposedPlan : Option ExecutionPlan := none

structure RecordPage where
  records : List SessionRecord
  nextOffset : Option Nat

------------------------------------------------------------
-- Requests
------------------------------------------------------------

/-
  The requests of the kernel. All of them concern the session
  of the advance. `completions` asks in which order the tasks
  of a wave finish; `outOfFuel` has no answer.
-/
inductive Op where
  | append (record : SessionRecord)
  | loadSession
  | findOutcome (idempotencyKey : String)
  | findPendingApproval (resumeToken : ResumeToken)
  | listRecords (offset limit : Nat)
  | getProjection
  | setProjection (snapshot : SessionSnapshot)
  | plan (state : AgentStateSnapshot) (trigger : AgentTrigger)
  | generateAction (timeoutMs : Option Nat)
      (request : ProviderRequest)
  | execute (backend : RegisteredSkillBackend)
      (invocation : SkillInvocation)
  | sleep (ms : Nat)
  | completions (tasks : List ToolTask)
  | newUuid
  | isCancelled (cancelled : Bool)
  | deadlineReached (budgetMs : Nat)
  | outOfFuel

/- A provider that does not answer in time answers `none`. -/
abbrev Answer : Op → Type
| .append _ => Except MemoryError Unit
| .loadSession => Except MemoryError SessionSnapshot
| .findOutcome _ => Except MemoryError (Option EngineOutcome)
| .findPendingApproval _ =>
    Except MemoryError (Option PendingApprovalRecord)
| .listRecords _ _ => Except MemoryError RecordPage
| .getProjection => Option SessionSnapshot
| .setProjection _ => Bool
| .plan _ _ => PlannerOutput
| .generateAction _ _ =>
    Option (Except ProviderError ProviderDecision)
| .execute _ _ => SkillAnswer
| .sleep _ => Unit
| .completions _ => List ToolTask
| .newUuid => String
| .isCancelled _ => Bool
| .deadlineReached _ => Bool
| .outOfFuel => Empty

------------------------------------------------------------
-- The Host
------------------------------------------------------------

/-
  The host's state for one session: the ledger, the cached
  projection, and the identifiers handed out so far.
-/
structure World where
  sessionId : String
  ledger : List SessionRecord
  cache : Option SessionSnapshot
  issued : List String

namespace World

/- A session nothing has happened in yet. -/
def empty (sessionId : String) : World where
  sessionId := sessionId
  ledger := []
  cache := none
  issued := []

def snapshot (w : World) : SessionSnapshot where
  sessionId := w.sessionId
  records := w.ledger
  latestOutcome := latestOutcome w.ledger

/- A page of the ledger, without a time filter. -/
def recordPage
    (w : World)
    (offset limit : Nat) :
    RecordPage :=
  let records := (w.ledger.drop offset).take limit
  { records := records
    nextOffset :=
      if offset + records.length < w.ledger.length then
        some (offset + records.length)
      else none }

/- Append one record to the ledger. -/
def append
    (w : World)
    (record : SessionRecord) :
    World :=
  { w with ledger := w.ledger ++ [record] }

end World

/- A read of the store fails or returns what is stored. -/
def ReadsAs
    {α : Type}
    (stored : α) :
    Except MemoryError α → Prop
| .ok value => value = stored
| .error _ => True

/-
  The answers a host may give. A failed append leaves no
  record; a cached projection may be lost; a token that was
  cancelled stays so; a new identifier was never issued.
-/
def hostAllowed
    (w : World) :
    (op : Op) → Answer op → Prop
| .append _, _ => True
| .loadSession, a => ReadsAs w.snapshot a
| .findOutcome key, a =>
    ReadsAs (findOutcomeByIdempotencyKey w.ledger key) a
| .findPendingApproval token, a =>
    ReadsAs (findPendingApprovalByResumeToken w.ledger token) a
| .listRecords offset limit, a =>
    ReadsAs (w.recordPage offset limit) a
| .getProjection, a => a = none ∨ a = w.cache
| .setProjection _, _ => True
| .plan _ _, _ => True
| .generateAction timeoutMs _, a =>
    timeoutMs = none → a ≠ none
| .execute _ _, _ => True
| .sleep _, _ => True
| .completions tasks, a => tasks.Perm a
| .newUuid, a => a ∉ w.issued
| .isCancelled cancelled, a => cancelled = true → a = true
| .deadlineReached _, _ => True
| .outOfFuel, _ => True

/- What an answer leaves behind. -/
def hostNext
    (w : World) :
    (op : Op) → Answer op → World
| .append record, .ok _ => w.append record
| .append _, .error _ => w
| .setProjection snapshot, true =>
    { w with cache := some snapshot }
| .setProjection _, false => w
| .newUuid, a => { w with issued := a :: w.issued }
| .loadSession, _ => w
| .findOutcome _, _ => w
| .findPendingApproval _, _ => w
| .listRecords _ _, _ => w
| .getProjection, _ => w
| .plan _ _, _ => w
| .generateAction _ _, _ => w
| .execute _ _, _ => w
| .sleep _, _ => w
| .completions _, _ => w
| .isCancelled _, _ => w
| .deadlineReached _, _ => w
| .outOfFuel, _ => w

/- The host, with a store that may fail at any request. -/
def host : Machine Op Answer World where
  allowed := hostAllowed
  next := hostNext

/- The store answered the request. -/
def StoreAnswered : (op : Op) → Answer op → Prop
| .append _, a => a = .ok ()
| .loadSession, a => ∃ value, a = .ok value
| .findOutcome _, a => ∃ value, a = .ok value
| .findPendingApproval _, a => ∃ value, a = .ok value
| .listRecords _ _, a => ∃ value, a = .ok value
| _, _ => True

/- The host with a store that never fails. -/
def reliable : Machine Op Answer World :=
  host.restrict fun _ op a => StoreAnswered op a

------------------------------------------------------------
-- Kernel Programs
------------------------------------------------------------

abbrev EngineM : Type → Type :=
  Program Op Answer EngineError

/- Append a record and see whether it was stored. -/
def append
    (record : SessionRecord) :
    EngineM (Except MemoryError Unit) :=
  Program.perform (Op.append record)

/- Append a record; a failed append ends the advance. -/
def appendOrFail (record : SessionRecord) : EngineM Unit := do
  match ← append record with
  | .ok _ => pure ()
  | .error error => .throw (.memory error)

def newUuid : EngineM String :=
  Program.perform Op.newUuid

end RainEngine
