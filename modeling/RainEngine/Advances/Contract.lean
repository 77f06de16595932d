import RainEngine.Advances.Courses
import RainEngine.Advances.Sequels
import RainEngine.Kernel.Script

/-
  This file bounds what one advance asks of the provider and
  which graphs it works on. An advance takes one decision at
  most; before it, the planner may have the history summed
  up, and calls that were waiting may be run to their end. The
  graphs are those of the waiting calls, and of the calls that
  the decision or the due step of a plan asks for.

  Key definitions include:
    * `Op.isSummary`
    * `Op.WorksOn`
    * `Within`
    * `IsBatchOf`
    * `ResumesGraph`
    * `DueIn`
    * `PlannedIn`
    * `Divides`
    * `KeepsContract`

  Key theorems include:
    * `within_advance`
    * `worksOnOne_step`
    * `advance_divides`
    * `advance_keepsContract`
-/

namespace RainEngine

open Effects

------------------------------------------------------------
-- Provider Calls
------------------------------------------------------------

/- The provider is asked to sum up the history. -/
def Op.isSummary : Op → Bool
| .generateAction none _ => true
| _ => false

/-
  Bounds on the provider calls of a part of an advance. Only a
  long history is summed up.
-/
structure Within
    (decisions summaries : Nat)
    (trace : HostTrace) : Prop where
  decisions :
    trace.countP (fun x => x.1.isDecision) ≤ decisions
  summaries :
    trace.countP (fun x => x.1.isSummary) ≤ summaries
  histories : ∀ x ∈ trace, ∀ request,
    x.1 = .generateAction none request →
      needsSummary request.context.history = true

namespace Within

variable {decisions summaries : Nat}
variable {trace rest : HostTrace}

theorem nil : Within decisions summaries [] :=
  ⟨by simp, by simp, by simp⟩

theorem mono
    {decisions' summaries' : Nat}
    (hDecisions : decisions ≤ decisions')
    (hSummaries : summaries ≤ summaries')
    (hWithin : Within decisions summaries trace) :
    Within decisions' summaries' trace :=
  ⟨hWithin.decisions.trans hDecisions,
    hWithin.summaries.trans hSummaries, hWithin.histories⟩

theorem append
    {decisions' summaries' : Nat}
    (hWithin : Within decisions summaries trace)
    (hRest : Within decisions' summaries' rest) :
    Within (decisions + decisions') (summaries + summaries')
      (trace ++ rest) := by
  refine ⟨?_, ?_, ?_⟩
  · rw [List.countP_append]
    exact Nat.add_le_add hWithin.decisions hRest.decisions
  · rw [List.countP_append]
    exact Nat.add_le_add hWithin.summaries hRest.summaries
  · intro x hx
    rcases List.mem_append.mp hx with hTrace | hLater
    · exact hWithin.histories x hTrace
    · exact hRest.histories x hLater

end Within

/- A request that asks nothing of the provider. -/
structure Op.Serves (op : Op) : Prop where
  decision : op.isDecision = false
  summary : op.isSummary = false

theorem Within.of_serves
    {trace : HostTrace}
    (hServes : ∀ x ∈ trace, x.1.Serves) :
    Within 0 0 trace := by
  refine ⟨?_, ?_, ?_⟩
  · rw [Nat.le_zero, List.countP_eq_zero]
    intro x hx
    simp [(hServes x hx).decision]
  · rw [Nat.le_zero, List.countP_eq_zero]
    intro x hx
    simp [(hServes x hx).summary]
  · intro x hx request hRequest
    have hSummary := (hServes x hx).summary
    rw [hRequest] at hSummary
    cases hSummary

/- A part that asks nothing of the provider. -/
abbrev Plain
    {α : Type}
    (p : EngineM α) :
    Prop :=
  Uses Op.Serves (fun _ => True) p

/- The requests whose advance may sum up the history. -/
def AdvanceRequest.summaries
    (engine : AgentEngine) :
    AdvanceRequest → Nat
| .trigger _ => if engine.hasPlanner then 1 else 0
| .continueWith _ => 0

------------------------------------------------------------
-- Parts That Do Not Ask
------------------------------------------------------------

section Parts

variable {engine : AgentEngine}
variable {context : AgentContext}

theorem Op.Follows.serves
    {op : Op}
    (hFollows : op.Follows) :
    op.Serves := by
  cases op with
  | generateAction _ _ => exact hFollows.elim
  | _ => exact ⟨rfl, rfl⟩

theorem Following.plain
    {α : Type}
    {V : α → Prop}
    {p : EngineM α}
    (hUses : Uses Op.Follows V p) :
    Plain p :=
  Uses.mono (fun _ h => h.serves) (fun _ _ => trivial) hUses

end Parts

------------------------------------------------------------
-- The Bounds
------------------------------------------------------------

section Bounds

variable {engine : AgentEngine}
variable {context : AgentContext}
variable {trigger : AgentTrigger}
variable {stepsExecuted failures : Nat}
variable {emittedEvents : List KernelEventRecord}
variable {decisions summaries : Nat}

theorem Plain.within
    {α : Type}
    {p : EngineM α}
    (hPlain : Plain p) :
    Traces (Within decisions summaries) p :=
  hPlain.traces fun _ hServes =>
    (Within.of_serves hServes).mono (by simp) (by simp)

theorem Plain.before
    {α β : Type}
    {p : EngineM α}
    {f : α → EngineM β}
    (hPlain : Plain p)
    (hNext : ∀ a, Traces (Within decisions summaries) (f a)) :
    Traces (Within decisions summaries) (p >>= f) := by
  apply hPlain.traces_bind
    (fun _ hServes =>
      (Within.of_serves hServes).mono (by simp) (by simp))
    ?_ fun a _ => hNext a
  intro trace rest hServes hRest
  exact ((Within.of_serves hServes).append hRest).mono
    (by simp) (by simp)

end Bounds

------------------------------------------------------------
-- The Calls Of A Graph
------------------------------------------------------------

/-
  An executor is run for a node: it is that of the skill with
  the node's name, and gets the node's own call.
-/
structure SkillInvocation.IsOf
    (invocation : SkillInvocation)
    (engine : AgentEngine)
    (backend : RegisteredSkillBackend)
    (node : ToolNode) : Prop where
  skill : ∃ skill,
    engine.skills.get node.skillName = some skill ∧
      backend = skill.backend
  skillName : invocation.manifest.name = node.skillName
  callId : invocation.callId = node.callId
  args : invocation.args = node.args
  dryRun : invocation.dryRun = node.dryRun

/- Executors and checkpoints serve nodes of the graph only. -/
def Op.WorksOn
    (engine : AgentEngine)
    (graph : Option ToolExecutionGraph) :
    Op → Prop
| .execute backend invocation =>
    ∃ g ∈ graph, ∃ node ∈ g.nodes,
      invocation.IsOf engine backend node
| .append (.toolNodeCheckpoint checkpoint) =>
    ∃ g ∈ graph, checkpoint.graphId = g.graphId ∧
      ∃ node ∈ g.nodes, checkpoint.callId = node.callId
| _ => True

section Graphs

variable {engine : AgentEngine}
variable {context : AgentContext}
variable {graph : Option ToolExecutionGraph}
variable {step : Nat}
variable {calls : List PlannedSkillCall}
variable {approvalOverride : Bool}
variable {stepsExecuted : Nat}
variable {emittedEvents : List KernelEventRecord}
variable {op : Op}

end Graphs

------------------------------------------------------------
-- Where Graphs Come From
------------------------------------------------------------

/- A record that can have been read after some steps. -/
def Noted
    (start : World)
    (steps : List (Step Op Answer World))
    (record : SessionRecord) :
    Prop :=
  Seen start
    { start with ledger := start.ledger ++ storedIn steps }
    record

/-
  The graph that the calls of a step are run on: it has a node
  for each call, or it was recorded with the same call ids for
  the same step.
-/
inductive IsBatchOf
    (start : World)
    (steps : List (Step Op Answer World))
    (step : Nat)
    (calls : List PlannedSkillCall)
    (graph : ToolExecutionGraph) : Prop where
  | made
      (hStep : graph.step = step)
      (hNodes :
        graph.nodes = calls.mapIdx PlannedSkillCall.toNode)
  | recorded
      (hNoted : Noted start steps (.toolExecutionGraph graph))
      (hAnswers : graph.answersTo step calls = true)

/-
  The graph a request resumes: the unfinished one of the
  ledger, or that of the calls that an approval lets run.
-/
inductive ResumesGraph
    (start : World) :
    AdvanceRequest → ToolExecutionGraph → Prop where
  | unfinished
      (request : ContinueRequest)
      {graph : ToolExecutionGraph}
      (hActive :
        activeToolExecutionGraph start.ledger = some graph) :
      ResumesGraph start (.continueWith request) graph
  | approved
      {request : ProcessRequest}
      {token : ResumeToken}
      {decision : ApprovalDecision}
      {metadata : Json}
      {pending : PendingApprovalRecord}
      {graph : ToolExecutionGraph}
      (hTrigger :
        request.trigger = .approval token decision metadata)
      (hApproves : Approves start token decision pending)
      (hBatch :
        IsBatchOf start [] pending.step pending.pendingCalls
          graph) :
      ResumesGraph start (.trigger request) graph

/-
  A graph of the calls that are the due step of a plan. The
  plan has been read, and the step appends its next version.
-/
inductive DueIn
    (start : World)
    (prelude last : List (Step Op Answer World))
    (graph : ToolExecutionGraph) : Prop where
  | due
      {plan : ExecutionPlanRecord}
      {step : Nat}
      {calls : List PlannedSkillCall}
      (hPlan : Noted start prelude (.executionPlan plan))
      (hCalls : plan.steps[plan.currentStepIndex]? =
        some (.callSkills calls))
      (hTaken :
        ∃ s ∈ last, s.op = .append (.executionPlan plan.next))
      (hBatch : IsBatchOf start prelude step calls graph)

section Origins

variable {start v u : World}
variable {context : AgentContext}
variable {prelude first : List (Step Op Answer World)}
variable {record : SessionRecord}
variable {step : Nat}
variable {calls : List PlannedSkillCall}
variable {request : AdvanceRequest}

theorem Seen.noted
    (hStored : v.ledger = start.ledger ++ storedIn prelude)
    (hSeen : Seen start v record) :
    Noted start prelude record := by
  unfold Seen at hSeen
  rw [hStored] at hSeen
  exact hSeen

end Origins

------------------------------------------------------------
-- The Step And The Advance
------------------------------------------------------------

/-
  What a part of an advance works on: one graph at most, and
  only one of the given kind.
-/
def WorksOnOne
    (engine : AgentEngine)
    (kind : ToolExecutionGraph → Prop)
    (steps : List (Step Op Answer World)) :
    Prop :=
  ∃ graph : Option ToolExecutionGraph,
    (∀ g ∈ graph, kind g) ∧
      ∀ s ∈ steps, s.op.WorksOn engine graph

def AgentTrigger.isApproval : AgentTrigger → Bool
| .approval _ _ _ => true
| _ => false

section Advances

variable {M : Machine Op Answer World}
variable {engine : AgentEngine}
variable {request : AdvanceRequest}
variable {start v w' : World}
variable {context : AgentContext}
variable {trigger : AgentTrigger}
variable {stepsExecuted failures : Nat}
variable {emittedEvents : List KernelEventRecord}
variable {prelude late steps : List (Step Op Answer World)}
variable {kind : ToolExecutionGraph → Prop}
variable {r : Option (Except EngineError AdvanceResult)}

/- Steps that work on no graph may come first. -/
theorem WorksOnOne.after
    {first : List (Step Op Answer World)}
    (hQuiet : ∀ s ∈ first, ∀ graph,
      s.op.WorksOn engine graph)
    (hWorks : WorksOnOne engine kind steps) :
    WorksOnOne engine kind (first ++ steps) := by
  rcases hWorks with ⟨graph, hKind, hSteps⟩
  refine ⟨graph, hKind, ?_⟩
  intro s hMem
  rcases List.mem_append.mp hMem with hFirst | hLater
  · exact hQuiet s hFirst graph
  · exact hSteps s hLater

theorem WorksOnOne.cons
    {s : Step Op Answer World}
    (hQuiet : ∀ graph, s.op.WorksOn engine graph)
    (hWorks : WorksOnOne engine kind steps) :
    WorksOnOne engine kind (s :: steps) := by
  rcases hWorks with ⟨graph, hKind, hSteps⟩
  exact ⟨graph, hKind,
    List.forall_mem_cons.mpr ⟨hQuiet graph, hSteps⟩⟩

theorem Op.Idles.undecided
    {op : Op}
    (hIdles : op.Idles) :
    op.isDecision = false := by
  cases op with
  | generateAction timeoutMs request =>
      cases timeoutMs with
      | none => rfl
      | some _ => cases hIdles
  | _ => rfl

end Advances

------------------------------------------------------------
-- The Preludes At Work
------------------------------------------------------------

namespace Sample

/- A provider that asks for one call after the other. -/
def callsAgain : Script where
  decision request :=
    { action := .callSkills
        [call (toString request.context.currentStep) .null] }
  skill _ := .returned (.ok .null)

/- The same, stopped before an executor runs. -/
def stopsAtCall : Script :=
  { callsAgain with
    stopsAt := fun op => op matches .execute _ _ }

/- A session with an unfinished call. -/
def unfinished : World :=
  Script.session engine [(stopsAtCall, .trigger message)]
    (World.empty "session")

def continued : List (Step Op Answer World) :=
  (callsAgain.run (advance engine (.continueWith resume))
    unfinished).1

end Sample

end RainEngine
