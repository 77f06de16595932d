import RainEngine.Cognition.Extraction
import RainEngine.Kernel.Host

/-
  This file models the research planner: when it asks a model
  for a plan, how it reads the answer, and the events it emits
  for the plan. It reads every object between texts without
  braces, and it panics exactly when the braces of the answer
  are crossed.

  Key definitions include:
    * `ResearchPlan`
    * `planTasks`
    * `ResearchPlanner.plan`
    * `ReadsAnswer`

  Key theorems include:
    * `ResearchPlanner.plan_eq`
    * `readsAnswer_iff`
-/

namespace RainEngine.Cognition

------------------------------------------------------------
-- Plans
------------------------------------------------------------

structure PlannedTask where
  id : String
  title : String
  detail : String
  dependsOn : List String

structure ResearchPlan where
  goalTitle : String
  goalDetail : String
  tasks : List PlannedTask

/- Some task is not yet done, failed or abandoned. -/
def hasActiveTasks (state : AgentStateSnapshot) : Bool :=
  state.tasks.any fun task =>
    match task.status with
    | .pending => true
    | .ready => true
    | .running => true
    | .blocked => true
    | .waitingHuman => true
    | _ => false

/- The text of a trigger that states a goal. -/
def goalContent : AgentTrigger → Option String
| .humanInput _ content _ => some content
| .message _ content _ => some content
| _ => none

def goalName (number : Nat) : GoalId :=
  "goal-" ++ toString number

def taskName (number : Nat) : TaskId :=
  "task-" ++ toString number

------------------------------------------------------------
-- Events Of A Plan
------------------------------------------------------------

/-
  The tasks of a plan, named from the given number on. The
  map holds the names of the tasks that were passed, and of
  the one at hand.
-/
def planTasks
    (goalId : GoalId)
    (idMap : String → Option TaskId)
    (number : Nat) :
    List PlannedTask → List TaskRecord
| [] => []
| planned :: rest =>
    let taskId := taskName number
    let idMap := fun id =>
      if id = planned.id then some taskId else idMap id
    let blockedBy := planned.dependsOn.filterMap idMap
    { taskId := taskId
      goalId := some goalId
      parentTaskId := none
      title := planned.title
      detail := some planned.detail
      status := if blockedBy = [] then .ready else .blocked
      assignee := none
      blockedBy := blockedBy } ::
      planTasks goalId idMap (number + 1) rest

def planEvents
    (state : AgentStateSnapshot)
    (plan : ResearchPlan) :
    List KernelEvent :=
  let goalId := goalName (state.goals.length + 1)
  .goalCreated
      { goalId := goalId
        title := plan.goalTitle
        detail := some plan.goalDetail
        status := .active
        parentGoalId := none } ::
    (planTasks goalId (fun _ => none)
      (state.tasks.length + 1) plan.tasks).map .taskPlanned

------------------------------------------------------------
-- The Planner
------------------------------------------------------------

/- The model the planner asks, and the reading of its JSON. -/
structure ResearchPlanner where
  generateAction :
    ProviderRequest → Except ProviderError ProviderDecision
  fromStr : String → Option ResearchPlan

def systemPrompt : String :=
  "You are a Research Architect. Your job is to decompose " ++
  "a high-level research goal into a directed acyclic " ++
  "graph (DAG) of specific tasks.\n" ++
  "Output your plan as a single JSON object with this " ++
  "structure:\n" ++
  "\x7b\n" ++
  "  \"goal_title\": \"Short title\",\n" ++
  "  \"goal_detail\": \"Detailed explanation\",\n" ++
  "  \"tasks\": [\n" ++
  "    \x7b\n" ++
  "      \"id\": \"task-1\",\n" ++
  "      \"title\": \"Task title\",\n" ++
  "      \"detail\": \"What to do\",\n" ++
  "      \"depends_on\": []\n" ++
  "    \x7d,\n" ++
  "    ...\n" ++
  "  ]\n" ++
  "\x7d\n" ++
  "Each task should be atomic. Use \"depends_on\" to " ++
  "specify which task IDs must be completed before a task " ++
  "can start."

def planningRequest
    (state : AgentStateSnapshot)
    (trigger : AgentTrigger)
    (content : String) :
    ProviderRequest where
  trigger := trigger
  context :=
    { sessionId := state.agentId
      grantedScopes := ["scope:research"]
      triggerId := "planning-trigger"
      idempotencyKey := none
      currentStep := 0
      maxSteps := 1
      history := []
      priorToolResults := []
      sessionCostUsd := .finite 0
      state := state
      policy := EnginePolicy.default
      activeExecutionPlan := none }
  availableSkills := []
  config := {}
  policy := EnginePolicy.default
  contents :=
    [{ role := .system
       parts := [.text systemPrompt] },
      { role := .user
        parts := [.text ("Goal: " ++ content)] }]

namespace ResearchPlanner

/- What an answer is turned into; reading it may panic. -/
def planAnswer
    (planner : ResearchPlanner)
    (state : AgentStateSnapshot)
    (text : String) :
    Option PlannerOutput :=
  match extractJson text with
  | none => none
  | some json =>
      match planner.fromStr json with
      | none => some {}
      | some plan =>
          some
            { events := planEvents state plan
              proposedPlan := none }

/- What the planner returns, unless it panics. -/
def plan
    (planner : ResearchPlanner)
    (state : AgentStateSnapshot)
    (trigger : AgentTrigger) :
    Option PlannerOutput :=
  if hasActiveTasks state then some {}
  else
    match goalContent trigger with
    | none => some {}
    | some content =>
        match planner.generateAction
          (planningRequest state trigger content) with
        | .error _ => some {}
        | .ok decision =>
            match decision.action with
            | .respond text => planner.planAnswer state text
            | _ => some {}

/- The planner asked for a plan and was given a text. -/
structure Answered
    (planner : ResearchPlanner)
    (state : AgentStateSnapshot)
    (trigger : AgentTrigger)
    (text : String) :
    Prop where
  idle : hasActiveTasks state = false
  answer : ∃ content decision,
    goalContent trigger = some content ∧
      planner.generateAction
          (planningRequest state trigger content) =
        .ok decision ∧
      decision.action = .respond text

/- The planner returns what it makes of the answer. -/
theorem plan_eq
    {planner : ResearchPlanner}
    {state : AgentStateSnapshot}
    {trigger : AgentTrigger}
    {text : String}
    (hAnswered : planner.Answered state trigger text) :
    planner.plan state trigger =
      planner.planAnswer state text := by
  obtain ⟨content, decision, hGoal, hDecision, hAction⟩ :=
    hAnswered.answer
  unfold plan
  rw [hAnswered.idle, if_neg Bool.false_ne_true, hGoal]
  simp only [hDecision, hAction]

end ResearchPlanner

------------------------------------------------------------
-- Reading An Answer
------------------------------------------------------------

/-
  An object between texts without braces is extracted and its
  plan is emitted, and no answer aborts the planner.
-/
structure ReadsAnswer (text : String) : Prop where
  total : ∃ json, extractJson text = some json
  complete : ∀ object, Encloses text object →
    extractJson text = some object
  returns :
    ∀ (planner : ResearchPlanner) state trigger,
      planner.Answered state trigger text →
        ∃ output, planner.plan state trigger = some output
  parses :
    ∀ (planner : ResearchPlanner) state trigger object plan,
      planner.Answered state trigger text →
      Encloses text object →
      planner.fromStr object = some plan →
        planner.plan state trigger =
          some { events := planEvents state plan }

/- A text is read exactly if its braces are not crossed. -/
theorem readsAnswer_iff
    (text : String) :
    ReadsAnswer text ↔ ¬BracesCrossed text := by
  rw [← extractJson_eq_none]
  constructor
  · intro hReads hNone
    obtain ⟨json, hJson⟩ := hReads.total
    rw [hNone] at hJson
    cases hJson
  · intro hSome
    obtain ⟨json, hJson⟩ :=
      Option.ne_none_iff_exists'.mp hSome
    refine ⟨⟨json, hJson⟩,
      fun object => extractJson_encloses, ?_, ?_⟩
    · intro planner state trigger hAnswered
      rw [ResearchPlanner.plan_eq hAnswered]
      unfold ResearchPlanner.planAnswer
      rw [hJson]
      cases hPlan : planner.fromStr json with
      | none =>
          refine ⟨{}, ?_⟩
          simp only [hPlan]
      | some plan =>
          refine ⟨{ events := planEvents state plan }, ?_⟩
          simp only [hPlan]
    · intro planner state trigger object plan hAnswered
        hEncloses hPlan
      rw [ResearchPlanner.plan_eq hAnswered]
      unfold ResearchPlanner.planAnswer
      rw [extractJson_encloses hEncloses]
      simp only [hPlan]

namespace Sample

/- A model that always answers with the given text. -/
def replying (text : String) : ResearchPlanner where
  generateAction _ := .ok { action := .respond text }
  fromStr _ := none

def malformedAnswer : String :=
  "The plan ends with \x7d and starts with \x7b."

end Sample

/- The answer aborts the planner. -/
theorem malformed_answer_panics :
    extractJson Sample.malformedAnswer = none ∧
      (Sample.replying Sample.malformedAnswer).plan
          (.empty "session")
          (.message "user" "Find the cause" []) =
        none := by
  decide +kernel

end RainEngine.Cognition
