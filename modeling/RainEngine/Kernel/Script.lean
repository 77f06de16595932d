import RainEngine.Kernel.Engine

/-
  This file defines a scripted host: a working store together
  with a fixed provider, planner and executor. Its runs are
  computable and are executions of the reliable host.

  Key definitions include:
    * `Script`
    * `Script.answer`
    * `Script.run`
    * `Script.session`

  Key theorems include:
    * `Script.answer_allowed`
    * `Script.run_exec`
-/

namespace RainEngine

open Effects

/-
  A provider, a planner and an executor, and the requests the
  process stops at.
-/
structure Script where
  decision : ProviderRequest → ProviderDecision
  planned : PlannerOutput := {}
  skill : SkillInvocation → SkillAnswer
  stopsAt : Op → Bool := fun _ => false

namespace Script

/- The next identifier, unless it has been handed out. -/
def nextUuid (w : World) : Option String :=
  let uuid := toString w.issued.length
  if uuid ∈ w.issued then none else some uuid

/- The answer to a request, if the process goes on. -/
def reply
    (script : Script)
    (w : World) :
    (op : Op) → Option (Answer op)
| .append _ => some (.ok ())
| .loadSession => some (.ok w.snapshot)
| .findOutcome key =>
    some (.ok (findOutcomeByIdempotencyKey w.ledger key))
| .findPendingApproval token =>
    some (.ok
      (findPendingApprovalByResumeToken w.ledger token))
| .listRecords offset limit =>
    some (.ok (w.recordPage offset limit))
| .getProjection => some w.cache
| .setProjection _ => some true
| .plan _ _ => some script.planned
| .generateAction _ request =>
    some (some (.ok (script.decision request)))
| .execute _ invocation => some (script.skill invocation)
| .sleep _ => some ()
| .completions tasks => some tasks
| .newUuid => nextUuid w
| .isCancelled cancelled => some cancelled
| .deadlineReached _ => some false
| .outOfFuel => none

def answer
    (script : Script)
    (w : World)
    (op : Op) :
    Option (Answer op) :=
  if script.stopsAt op then none else script.reply w op

/- The scripted host answers as the reliable host may. -/
theorem answer_allowed
    {script : Script}
    {w : World}
    {op : Op}
    {a : Answer op}
    (hAnswer : script.answer w op = some a) :
    reliable.allowed w op a := by
  unfold answer at hAnswer
  split at hAnswer
  · cases hAnswer
  · cases op with
    | newUuid =>
        simp only [reply, nextUuid] at hAnswer
        split at hAnswer
        · cases hAnswer
        · rename_i hFresh
          cases hAnswer
          exact ⟨hFresh, trivial⟩
    | outOfFuel => cases hAnswer
    | _ =>
        cases hAnswer
        simp [reliable, Machine.restrict, host, hostAllowed,
          StoreAnswered, ReadsAs]

/- Run a program on the scripted host. -/
def run
    {α : Type}
    (script : Script)
    (p : EngineM α)
    (w : World) :
    List (Step Op Answer World) × World ×
      Option (Except EngineError α) :=
  p.run reliable script.answer w

theorem run_exec
    {α : Type}
    (script : Script)
    (p : EngineM α)
    (w : World) :
    Exec reliable w p
      (script.run p w).1
      (script.run p w).2.1
      (script.run p w).2.2 :=
  Program.run_exec (fun _ _ _ h => answer_allowed h) p w

/- The world after advances, each with a script of its own. -/
def session
    (engine : AgentEngine) :
    List (Script × AdvanceRequest) → World → World
| [], w => w
| (script, request) :: rest, w =>
    session engine rest
      (script.run (advance engine request) w).2.1

end Script

------------------------------------------------------------
-- Sample Fixtures
------------------------------------------------------------

namespace Sample

/- A rendering that prints nothing. -/
def rendering : Rendering where
  debugRecord _ := ""
  debugTime _ := ""
  toLowercase text := text
  fixed _ _ := ""
  recordsValue _ := .null

def manifest (name : String) : SkillManifest where
  name := name
  description := ""
  inputSchema := .object []
  requiredScopes := []
  capabilityGrants := []
  resourcePolicy := .defaultForTools
  approvalRequired := false
  circuitBreakerThreshold := .finite (1 / 2)

/- An engine with one WASM skill and no planner. -/
def engine : AgentEngine where
  skills :=
    { entries := [⟨manifest "echo", .wasm "wasm"⟩]
      nodup := by decide }
  hasPlanner := false
  rendering := rendering

/- The same with a planner. -/
def planning : AgentEngine :=
  { engine with hasPlanner := true }

def call (callId : String) (args : Json) : PlannedSkillCall where
  callId := callId
  name := "echo"
  args := args

/- A run that calls skills first and then responds. -/
def callsFirst (calls : List PlannedSkillCall) : Script where
  decision request :=
    if request.context.currentStep = 0 then
      { action := .callSkills calls }
    else { action := .respond "done" }
  skill _ := .returned (.ok .null)

/- A provider that responds at once. -/
def responds : Script where
  decision _ := { action := .respond "done" }
  skill _ := .returned (.ok .null)

def message : ProcessRequest where
  sessionId := "session"
  trigger := .message "user" "hello" []

def resume : ContinueRequest where
  sessionId := "session"

end Sample

end RainEngine
