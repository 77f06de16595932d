import Mathlib.Data.Fintype.EquivFin
import RainEngine.Batches.Progress
import RainEngine.Kernel.HostRules

/-
  This file shows that a batch of tool calls only fails
  because the store or a task fails: on a host whose store
  answers and whose executors do not panic it never throws.

  Key definitions include:
    * `Calm`

  Key theorems include:
    * `prepareNode_calm`
    * `joinTasks_calm`
    * `executeGraph_calm`
    * `exists_calm_answer`
-/

namespace RainEngine

open Effects

------------------------------------------------------------
-- Calm Hosts
------------------------------------------------------------

/- The store answers and no executor panics. -/
def Calm : (op : Op) → Answer op → Prop
| .append _, a => a = .ok ()
| .loadSession, a => ∃ value, a = .ok value
| .findOutcome _, a => ∃ value, a = .ok value
| .findPendingApproval _, a => ∃ value, a = .ok value
| .listRecords _ _, a => ∃ value, a = .ok value
| .execute _ _, a => ∃ output, a = .returned output
| _, _ => True

theorem Calm.storeAnswered
    {op : Op}
    {a : Answer op}
    (hCalm : Calm op a) :
    StoreAnswered op a := by
  cases op <;> first | exact hCalm | trivial

/- A calm host has an answer to every request. -/
theorem exists_calm_answer
    (w : World)
    (op : Op)
    (hFuel : op ≠ .outOfFuel) :
    ∃ a, hostAllowed w op a ∧ Calm op a := by
  cases op with
  | append record => exact ⟨.ok (), trivial, rfl⟩
  | loadSession => exact ⟨.ok w.snapshot, rfl, _, rfl⟩
  | findOutcome key => exact ⟨.ok _, rfl, _, rfl⟩
  | findPendingApproval token => exact ⟨.ok _, rfl, _, rfl⟩
  | listRecords offset limit => exact ⟨.ok _, rfl, _, rfl⟩
  | getProjection => exact ⟨none, .inl rfl, trivial⟩
  | setProjection snapshot => exact ⟨true, trivial, trivial⟩
  | plan state trigger => exact ⟨{}, trivial, trivial⟩
  | generateAction timeoutMs request =>
      exact ⟨some (.ok { action := .yieldWith none }),
        fun _ => nofun, trivial⟩
  | execute backend invocation =>
      exact ⟨.returned (.ok .null), trivial, _, rfl⟩
  | sleep ms => exact ⟨(), trivial, trivial⟩
  | completions tasks => exact ⟨tasks, .refl _, trivial⟩
  | newUuid =>
      rcases Infinite.exists_notMem_finset
        w.issued.toFinset with ⟨uuid, hFresh⟩
      exact ⟨uuid, fun hMem =>
        hFresh (List.mem_toFinset.mpr hMem), trivial⟩
  | isCancelled cancelled =>
      exact ⟨cancelled, fun h => h, trivial⟩
  | deadlineReached budgetMs =>
      exact ⟨false, trivial, trivial⟩
  | outOfFuel => exact absurd rfl hFuel

section Calm

variable {C : World → (op : Op) → Answer op → Prop}
variable {engine : AgentEngine}
variable {context : AgentContext}
variable {graph : ToolExecutionGraph}
variable {node : ToolNode}
variable {w : World}

/- A program that does not throw and returns only `V`. -/
def ReturnsOnly
    {α : Type}
    (C : World → (op : Op) → Answer op → Prop)
    (V : α → Prop)
    (p : EngineM α)
    (w : World) :
    Prop :=
  Safe (host.restrict C) (fun _ _ => True) (fun a _ => V a)
    (fun _ _ => False) p w

theorem ReturnsOnly.bind
    {α β : Type}
    {V : α → Prop}
    {V' : β → Prop}
    {p : EngineM α}
    {f : α → EngineM β}
    (hFirst : ReturnsOnly C V p w)
    (hNext : ∀ a w', V a → ReturnsOnly C V' (f a) w') :
    ReturnsOnly C V' (p >>= f) w :=
  Safe.bind hFirst (fun a w' hValue => hNext a w' hValue)

theorem ReturnsOnly.mono
    {α : Type}
    {V V' : α → Prop}
    {p : EngineM α}
    (hReturns : ReturnsOnly C V p w)
    (hValue : ∀ a, V a → V' a) :
    ReturnsOnly C V' p w :=
  Safe.mono (fun _ _ h => h) (fun a _ h => hValue a h)
    (fun _ _ h => h) hReturns

variable (hCalm : ∀ w op a, C w op a → Calm op a)

include hCalm

theorem appendOrFail_calm
    {record : SessionRecord} :
    ReturnsOnly C (fun _ => True) (appendOrFail record) w :=
  safe_appendOrFail_answered
    (fun w op a h => (hCalm w op a h).storeAnswered)
    trivial trivial

theorem appendToolCheckpoint_calm
    {status : ToolNodeStatus}
    {attempt : Nat}
    {detail : Option String} :
    ReturnsOnly C (fun _ => True)
      (appendToolCheckpoint graph node status attempt detail)
      w := by
  refine ⟨trivial, fun _ _ => ?_⟩
  exact appendOrFail_calm hCalm

theorem appendValidation_calm
    {valid : Bool}
    {errors : List String} :
    ReturnsOnly C (fun _ => True)
      (appendValidation graph node valid errors) w := by
  refine ⟨trivial, fun _ _ => ?_⟩
  exact appendOrFail_calm hCalm

theorem queueNodes_calm
    {nodes : List ToolNode} :
    ReturnsOnly C (fun _ => True) (queueNodes graph nodes)
      w := by
  induction nodes generalizing w with
  | nil => trivial
  | cons node rest ih =>
      unfold queueNodes
      refine (appendToolCheckpoint_calm hCalm).bind ?_
      intro _ w' _
      exact ih

theorem rejectNode_calm
    {kind : SkillFailureKind}
    {message : String} :
    ReturnsOnly C (fun _ => True)
      (rejectNode graph node kind message) w := by
  unfold rejectNode
  refine (appendToolCheckpoint_calm hCalm).bind ?_
  intro _ w' _
  trivial

theorem startNode_calm
    {skill : RegisteredSkill}
    {step attempt : Nat} :
    ReturnsOnly C (fun _ => True)
      (startNode context graph node skill step attempt)
      w := by
  unfold startNode
  refine (appendToolCheckpoint_calm hCalm).bind ?_
  intro _ w' _
  refine (appendOrFail_calm hCalm).bind ?_
  intro _ w'' _
  trivial

theorem guardNode_calm
    {skill : RegisteredSkill}
    {step : Nat}
    {attempts : AttemptMap} :
    ReturnsOnly C (fun _ => True)
      (guardNode engine context graph node skill step
        attempts) w := by
  have hReject : ∀ (kind : SkillFailureKind)
      (message : String) (w : World),
      ReturnsOnly C (fun _ => True)
        (do
          let rejected ← rejectNode graph node kind message
          pure (rejected, attempts)) w := by
    intro kind message w
    refine (rejectNode_calm hCalm).bind ?_
    intro _ w' _
    trivial
  unfold guardNode
  refine (appendToolCheckpoint_calm hCalm).bind ?_
  intro _ w' _
  split
  · exact hReject _ _ _
  · split
    · exact hReject _ _ _
    · split
      · exact hReject _ _ _
      · split
        · exact hReject _ _ _
        · refine (startNode_calm hCalm).bind ?_
          intro _ w'' _
          trivial

theorem prepareNode_calm
    {step : Nat}
    {attempts : AttemptMap} :
    ReturnsOnly C (fun _ => True)
      (prepareNode engine context graph node step attempts)
      w := by
  unfold prepareNode
  split
  · refine (appendValidation_calm hCalm).bind ?_
    intro _ w' _
    refine (rejectNode_calm hCalm).bind ?_
    intro _ w'' _
    trivial
  · split
    · refine (appendValidation_calm hCalm).bind ?_
      intro _ w' _
      split
      · refine (rejectNode_calm hCalm).bind ?_
        intro _ w'' _
        trivial
      · exact guardNode_calm hCalm
    · exact guardNode_calm hCalm

/- A task that has not panicked. -/
def TaskReturned (task : ToolTask) : Prop :=
  ∃ result, task = .ok result

theorem runAttempts_calm
    {prepared : PreparedCall}
    {remaining interval : Nat}
    {output : Except SkillExecutionError Json} :
    ReturnsOnly C (fun final => ∃ output, final = .ok output)
      (runAttempts prepared remaining interval output)
      w := by
  induction remaining generalizing interval output w with
  | zero => exact ⟨output, rfl⟩
  | succ remaining ih =>
      refine ⟨trivial, ?_⟩
      intro answer hAllowed
      rcases hCalm _ _ _ hAllowed.2 with ⟨result, hAnswer⟩
      subst hAnswer
      show Safe _ _ _ _ (if _ then _ else _) _
      split
      · exact ⟨result, rfl⟩
      · exact ⟨trivial, fun _ _ => ih⟩

theorem runPreparedCall_calm
    {prepared : PreparedCall} :
    ReturnsOnly C TaskReturned (runPreparedCall prepared)
      w := by
  unfold runPreparedCall
  refine (runAttempts_calm hCalm).bind ?_
  rintro _ w' ⟨output, hOutput⟩
  subst hOutput
  exact ⟨_, rfl⟩

theorem skipBlockedNodes_calm
    {nodes : List ToolNode}
    {state : BatchState}
    {changed : Bool} :
    ReturnsOnly C (fun _ => True)
      (skipBlockedNodes graph nodes state changed) w := by
  induction nodes generalizing state changed w with
  | nil => trivial
  | cons node rest ih =>
      unfold skipBlockedNodes
      split
      · exact ih
      · split
        · exact ih
        · refine (appendToolCheckpoint_calm hCalm).bind ?_
          intro _ w' _
          exact ih

theorem prepareWave_calm
    {step : Nat}
    {nodes : List ToolNode}
    {state : BatchState}
    {tasks : List ToolTask}
    (hTasks : ∀ task ∈ tasks, TaskReturned task) :
    ReturnsOnly C
      (fun next => ∀ task ∈ next.2, TaskReturned task)
      (prepareWave engine context graph step nodes state
        tasks) w := by
  induction nodes generalizing state tasks w with
  | nil => exact hTasks
  | cons node rest ih =>
      unfold prepareWave
      refine (prepareNode_calm hCalm).bind ?_
      rintro ⟨prepared, attempts⟩ w' _
      cases prepared with
      | executable call =>
          refine (runPreparedCall_calm hCalm).bind ?_
          intro task w'' hTask
          apply ih
          intro other hMem
          rcases List.mem_append.mp hMem with hOld | hLast
          · exact hTasks other hOld
          · rw [List.mem_singleton] at hLast
            subst hLast
            exact hTask
      | immediate result => exact ih hTasks

theorem joinTasks_calm
    {tasks : List ToolTask}
    {state : BatchState}
    (hTasks : ∀ task ∈ tasks, TaskReturned task) :
    ReturnsOnly C (fun _ => True)
      (joinTasks graph tasks state) w := by
  induction tasks generalizing state w with
  | nil => trivial
  | cons task rest ih =>
      have hRest : ∀ t ∈ rest, TaskReturned t :=
        fun t hMem => hTasks t (by simp [hMem])
      rcases hTasks task (by simp) with ⟨result, hTask⟩
      subst hTask
      unfold joinTasks
      split
      · exact ih hRest
      · refine (appendToolCheckpoint_calm hCalm).bind ?_
        intro _ w' _
        exact ih hRest

theorem runGraph_calm
    {step fuel : Nat}
    {state : BatchState} :
    ReturnsOnly C (fun _ => True)
      (runGraph engine context graph step fuel state) w := by
  induction fuel generalizing state w with
  | zero => exact ⟨trivial, nofun⟩
  | succ fuel ih =>
      unfold runGraph
      refine (skipBlockedNodes_calm hCalm).bind ?_
      rintro ⟨state, skipped⟩ w _
      dsimp only
      split
      · split
        · exact ih
        · trivial
      · refine (prepareWave_calm hCalm (by simp)).bind ?_
        rintro ⟨state, tasks⟩ w hTasks
        refine ⟨trivial, ?_⟩
        intro finished hAllowed
        refine (joinTasks_calm hCalm ?_).bind ?_
        · exact fun task hMem =>
            hTasks task (hAllowed.1.mem_iff.mpr hMem)
        · intro state w _
          exact ih

/- A batch on a calm host returns a report. -/
theorem executeGraph_calm
    {step : Nat} :
    ReturnsOnly C (fun _ => True)
      (executeGraph engine context graph step) w := by
  unfold executeGraph
  refine (runGraph_calm hCalm).bind ?_
  intro state w' _
  trivial

end Calm

end RainEngine
