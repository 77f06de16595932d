import RainEngine.Cognition.ResearchPlanner
import RainEngine.Graphs.Renaming
import RainEngine.States.Projection

/-
  This file is about the tasks a research plan is turned into.
  Their ids are always distinct. They are new if no finished
  task has one of the numbers that come next; they are acyclic
  if no task depends on itself; and they keep the dependencies
  of a plan if each task is listed after those it depends on.

  Key definitions include:
    * `tasksOf`
    * `dependencies`
    * `blocking`
    * `SoundPlan`

  Key theorems include:
    * `planTasks_blocking`
    * `research_plan_sound_iff`
-/

namespace RainEngine.Cognition

open Graphs (Acyclic rename nameIn RenamedBy)

------------------------------------------------------------
-- Sound Plans
------------------------------------------------------------

/- The tasks that events plan. -/
def tasksOf (events : List KernelEvent) : List TaskRecord :=
  events.filterMap KernelEvent.plannedTask

/- The tasks of a plan, with the ids they depend on. -/
def dependencies
    (plan : ResearchPlan) :
    List (String × List String) :=
  plan.tasks.map fun task => (task.id, task.dependsOn)

/- The ids of tasks, with those they are blocked by. -/
def blocking
    (tasks : List TaskRecord) :
    List (TaskId × List TaskId) :=
  tasks.map fun task => (task.taskId, task.blockedBy)

/- The task is blocked by what its plan depends on. -/
structure Realizes
    (names : String → Option TaskId)
    (planned : PlannedTask)
    (task : TaskRecord) :
    Prop where
  blockedBy :
    task.blockedBy = planned.dependsOn.filterMap names
  ready :
    task.status = .ready ↔
      ∀ id ∈ planned.dependsOn, names id = none

/-
  The planned tasks are new and distinct, and they do not wait
  for each other in a circle. If the plan has distinct ids and
  is acyclic, each task waits for what it depends on.
-/
structure SoundPlan
    (state : AgentStateSnapshot)
    (plan : ResearchPlan)
    (tasks : List TaskRecord) :
    Prop where
  distinct : (tasks.map (·.taskId)).Nodup
  unused : ∀ task ∈ tasks, ∀ old ∈ state.tasks,
    old.taskId ≠ task.taskId
  acyclic : Acyclic (blocking tasks)
  exact :
    (plan.tasks.map (·.id)).Nodup →
    Acyclic (dependencies plan) →
      List.Forall₂
        (Realizes
          (nameIn (dependencies plan) (blocking tasks)))
        plan.tasks tasks

/- Each task is listed after the tasks it depends on. -/
def ListedInOrder (plan : ResearchPlan) : Prop :=
  plan.tasks.Pairwise fun task later =>
    later.id ∉ task.dependsOn

------------------------------------------------------------
-- Tasks Of A Plan
------------------------------------------------------------

section Plans

variable {goalId : GoalId}
variable {idMap : String → Option TaskId}
variable {number : Nat}
variable {tasks : List PlannedTask}
variable {state : AgentStateSnapshot}
variable {plan : ResearchPlan}

theorem taskName_injective :
    Function.Injective taskName := by
  intro m n hSame
  have hRepr : Nat.repr m = Nat.repr n :=
    String.append_right_inj "task-" |>.mp hSame
  rw [Nat.repr_eq_ofList_toDigits,
    Nat.repr_eq_ofList_toDigits] at hRepr
  have hDigits := congrArg String.toList hRepr
  rw [String.toList_ofList, String.toList_ofList] at hDigits
  rw [← @Nat.ofDigitChars_toDigits 10 m (by decide)
    (by decide), hDigits]
  exact Nat.ofDigitChars_toDigits (by decide) (by decide)

/- What blocks the tasks is renamed from the plan. -/
theorem planTasks_blocking :
    blocking (planTasks goalId idMap number tasks) =
      rename taskName idMap number
        (tasks.map fun task => (task.id, task.dependsOn)) := by
  induction tasks generalizing idMap number with
  | nil => rfl
  | cons planned rest ih =>
      show _ :: blocking (planTasks _ _ _ rest) = _ :: _
      rw [ih]
      rfl

theorem ready_iff
    {blockedBy : List TaskId} :
    (if blockedBy = [] then TaskStatus.ready
      else .blocked) = .ready ↔ blockedBy = [] := by
  by_cases hNone : blockedBy = []
  · rw [if_pos hNone]
    exact ⟨fun _ => hNone, fun _ => rfl⟩
  · rw [if_neg hNone]
    exact ⟨fun hReady => TaskStatus.noConfusion hReady,
      fun hEmpty => absurd hEmpty hNone⟩

/- A task is ready if nothing blocks it. -/
theorem planTasks_ready
    {task : TaskRecord}
    (hMem : task ∈ planTasks goalId idMap number tasks) :
    task.status = .ready ↔ task.blockedBy = [] := by
  induction tasks generalizing idMap number with
  | nil => cases hMem
  | cons planned rest ih =>
      cases List.mem_cons.mp hMem with
      | inl hHead =>
          subst hHead
          exact ready_iff
      | inr hRest => exact ih hRest

theorem tasksOf_planEvents :
    tasksOf (planEvents state plan) =
      planTasks (goalName (state.goals.length + 1))
        (fun _ => none) (state.tasks.length + 1)
        plan.tasks := by
  unfold tasksOf planEvents
  rw [List.filterMap_cons_none rfl, List.filterMap_map]
  exact List.filterMap_some

theorem map_fst_blocking
    {records : List TaskRecord} :
    (blocking records).map Prod.fst =
      records.map (·.taskId) := by
  unfold blocking
  rw [List.map_map]
  rfl

/- A task realizes its plan if what blocks it is renamed. -/
theorem realizes_iff
    {names : String → Option TaskId}
    {records : List TaskRecord}
    (hReady : ∀ task ∈ records,
      task.status = .ready ↔ task.blockedBy = []) :
    List.Forall₂ (Realizes names) tasks records ↔
      List.Forall₂ (RenamedBy names)
        (tasks.map fun task => (task.id, task.dependsOn))
        (blocking records) := by
  unfold blocking
  rw [List.forall₂_map_left_iff, List.forall₂_map_right_iff]
  constructor
  · exact List.Forall₂.imp fun _ _ hReal => hReal.blockedBy
  · intro hRenamed
    induction hRenamed with
    | nil => exact .nil
    | @cons planned task rest more hBlocked _ ih =>
        rw [List.forall_mem_cons] at hReady
        refine .cons ⟨hBlocked, ?_⟩ (ih hReady.2)
        have hNames : task.blockedBy =
            planned.dependsOn.filterMap names :=
          hBlocked
        rw [hReady.1, hNames, List.filterMap_eq_nil_iff]

section Numbered

variable {records : List TaskRecord}
variable {entries : List (String × List String)}

theorem ids_distinct
    (hBlocking :
      blocking records =
        rename taskName idMap number entries) :
    (records.map (·.taskId)).Nodup := by
  rw [← map_fst_blocking, hBlocking]
  exact Graphs.names_rename_nodup taskName_injective

/- The ids of the tasks are the numbers that come next. -/
theorem ids_unused
    {tasks : List TaskRecord}
    (hBlocking :
      blocking records =
        rename taskName idMap number entries) :
    (∀ task ∈ records, ∀ old ∈ tasks,
        old.taskId ≠ task.taskId) ↔
      ∀ old ∈ tasks, ∀ i, i < entries.length →
        old.taskId ≠ taskName (number + i) := by
  have hIds : ∀ id,
      id ∈ records.map (·.taskId) ↔
        ∃ k, number ≤ k ∧ k < number + entries.length ∧
          id = taskName k := by
    intro id
    rw [← map_fst_blocking, hBlocking]
    exact Graphs.mem_names_rename
  constructor
  · intro hUnused old hOld i hLt hEq
    obtain ⟨task, hTask, hId⟩ := List.mem_map.mp
      ((hIds old.taskId).mpr
        ⟨number + i, by omega, by omega, hEq⟩)
    exact hUnused task hTask old hOld hId.symm
  · intro hApart task hTask old hOld hEq
    obtain ⟨k, hFrom, hTo, hName⟩ :=
      (hIds task.taskId).mp (List.mem_map_of_mem hTask)
    have hNumber : number + (k - number) = k := by
      omega
    apply hApart old hOld (k - number) (by omega)
    rw [hNumber, hEq, hName]

end Numbered

end Plans

/-
  The tasks of a plan are sound exactly if no old task has
  one of their numbers, no task depends on itself, and a plan
  that could be followed is listed in order.
-/
theorem research_plan_sound_iff
    (planner : ResearchPlanner)
    (state : AgentStateSnapshot)
    (trigger : AgentTrigger)
    (text json : String)
    (plan : ResearchPlan)
    (output : PlannerOutput)
    (hAnswered : planner.Answered state trigger text)
    (hJson : extractJson text = some json)
    (hPlan : planner.fromStr json = some plan)
    (hOutput : planner.plan state trigger = some output) :
    SoundPlan state plan (tasksOf output.events) ↔
      (∀ old ∈ state.tasks, ∀ i, i < plan.tasks.length →
        old.taskId ≠
          taskName (state.tasks.length + 1 + i)) ∧
      (∀ task ∈ plan.tasks, task.id ∉ task.dependsOn) ∧
      ((plan.tasks.map (·.id)).Nodup →
        Acyclic (dependencies plan) →
          ListedInOrder plan) := by
  have hEvents : output.events = planEvents state plan := by
    rw [ResearchPlanner.plan_eq hAnswered] at hOutput
    unfold ResearchPlanner.planAnswer at hOutput
    rw [hJson] at hOutput
    simp only [hPlan] at hOutput
    rw [← Option.some.inj hOutput]
  rw [hEvents, tasksOf_planEvents]
  generalize hTasks :
    planTasks (goalName (state.goals.length + 1))
      (fun _ => none) (state.tasks.length + 1)
      plan.tasks = tasks
  have hBlocking :
      blocking tasks =
        rename taskName (fun _ => none)
          (state.tasks.length + 1) (dependencies plan) := by
    rw [← hTasks]
    exact planTasks_blocking
  have hReady : ∀ task ∈ tasks,
      task.status = .ready ↔ task.blockedBy = [] := by
    intro task hMem
    rw [← hTasks] at hMem
    exact planTasks_ready hMem
  have hLength :
      (dependencies plan).length = plan.tasks.length :=
    List.length_map _
  have hIds :
      (dependencies plan).map Prod.fst =
        plan.tasks.map (·.id) := by
    unfold dependencies
    rw [List.map_map]
    rfl
  have hUnused :
      (∀ task ∈ tasks, ∀ old ∈ state.tasks,
          old.taskId ≠ task.taskId) ↔
        ∀ old ∈ state.tasks, ∀ i,
          i < plan.tasks.length → old.taskId ≠
            taskName (state.tasks.length + 1 + i) := by
    rw [ids_unused hBlocking, hLength]
  have hAcyclic :
      Acyclic (blocking tasks) ↔
        ∀ task ∈ plan.tasks,
          task.id ∉ task.dependsOn := by
    rw [hBlocking,
      Graphs.acyclic_rename_iff taskName_injective]
    unfold dependencies
    rw [List.forall_mem_map]
  have hExact :
      (plan.tasks.map (·.id)).Nodup →
        (List.Forall₂
            (Realizes
              (nameIn (dependencies plan) (blocking tasks)))
            plan.tasks tasks ↔
          ListedInOrder plan) := by
    intro hNodup
    rw [realizes_iff hReady, hBlocking]
    rw [← hIds] at hNodup
    refine (Graphs.rename_exact_iff hNodup).trans ?_
    unfold dependencies ListedInOrder
    rw [List.pairwise_map]
  constructor
  · intro hSound
    refine ⟨hUnused.mp hSound.unused,
      hAcyclic.mp hSound.acyclic, ?_⟩
    intro hNodup hOrder
    exact (hExact hNodup).mp (hSound.exact hNodup hOrder)
  · intro hBoth
    obtain ⟨hNew, hSelf, hListed⟩ := hBoth
    refine ⟨ids_distinct hBlocking, hUnused.mpr hNew,
      hAcyclic.mpr hSelf, ?_⟩
    intro hNodup hOrder
    exact (hExact hNodup).mpr (hListed hNodup hOrder)

------------------------------------------------------------
-- Orders Of Listing
------------------------------------------------------------

namespace Sample

/- The JSON of a task without a title or a detail. -/
def taskJson (id dependsOn : String) : String :=
  "\x7b\"id\":\"" ++ id ++
    "\",\"title\":\"\",\"detail\":\"\",\"depends_on\":[" ++
    dependsOn ++ "]\x7d"

def planFields (first second : String) : String :=
  "\"goal_title\":\"\",\"goal_detail\":\"\",\"tasks\":[" ++
    first ++ "," ++ second ++ "]"

def planJson (first second : String) : String :=
  "\x7b" ++ planFields first second ++ "\x7d"

theorem extractJson_planJson
    (first second : String) :
    extractJson (planJson first second) =
      some (planJson first second) := by
  apply extractJson_encloses
  refine ⟨⟨"", "", ?_, ?_, ?_⟩,
    (planFields first second).toList, ?_⟩
  · rw [String.append_empty, String.empty_append]
  · exact ⟨List.not_mem_nil, List.not_mem_nil⟩
  · exact ⟨List.not_mem_nil, List.not_mem_nil⟩
  · unfold planJson
    rw [String.toList_append, String.toList_append,
      List.append_assoc]
    rfl

def gathering : PlannedTask where
  id := "gather"
  title := ""
  detail := ""
  dependsOn := []

def writing : PlannedTask where
  id := "write"
  title := ""
  detail := ""
  dependsOn := ["gather"]

/- A task that depends on itself. -/
def circular : PlannedTask where
  id := "again"
  title := ""
  detail := ""
  dependsOn := ["again"]

def gatheringJson : String :=
  taskJson "gather" ""

def writingJson : String :=
  taskJson "write" "\"gather\""

def circularJson : String :=
  taskJson "again" "\"again\""

def planOf (tasks : List PlannedTask) : ResearchPlan where
  goalTitle := ""
  goalDetail := ""
  tasks := tasks

/- A model that answers with the JSON of a plan. -/
def proposing
    (text : String)
    (plan : ResearchPlan) :
    ResearchPlanner where
  generateAction _ := .ok { action := .respond text }
  fromStr json := if json = text then some plan else none

def goal : AgentTrigger :=
  .message "user" "Find the cause" []

theorem proposing_answered
    (text : String)
    (plan : ResearchPlan) :
    (proposing text plan).Answered (.empty "session") goal
      text :=
  ⟨rfl, _, _, rfl, rfl, rfl⟩

theorem proposing_reads
    (text : String)
    (plan : ResearchPlan) :
    (proposing text plan).fromStr text = some plan :=
  if_pos rfl

theorem proposing_plan
    {text : String}
    {plan : ResearchPlan}
    (hJson : extractJson text = some text) :
    (proposing text plan).plan (.empty "session") goal =
      some
        { events :=
            planEvents (.empty "session") plan } := by
  rw [ResearchPlanner.plan_eq (proposing_answered text plan)]
  unfold ResearchPlanner.planAnswer
  rw [hJson]
  simp only [proposing_reads]

end Sample

/- A plan that lists what it depends on first. -/
theorem research_plan_sound_ordered :
    ∃ output,
      (Sample.proposing
          (Sample.planJson Sample.gatheringJson
            Sample.writingJson)
          (Sample.planOf
            [Sample.gathering, Sample.writing])).plan
          (.empty "session") Sample.goal =
        some output ∧
      SoundPlan (.empty "session")
        (Sample.planOf [Sample.gathering, Sample.writing])
        (tasksOf output.events) := by
  have hJson := Sample.extractJson_planJson
    Sample.gatheringJson Sample.writingJson
  refine ⟨_, Sample.proposing_plan hJson, ?_⟩
  refine (research_plan_sound_iff _ _ _ _ _
    (Sample.planOf [Sample.gathering, Sample.writing]) _
    (Sample.proposing_answered _ _) hJson
    (Sample.proposing_reads _ _)
    (Sample.proposing_plan hJson)).mpr ⟨?_, ?_, ?_⟩
  · exact fun _ hOld => absurd hOld List.not_mem_nil
  · decide
  · intro _ _
    show List.Pairwise _ [Sample.gathering, Sample.writing]
    decide

/-
  A task that is listed before what it depends on is ready at
  once, and one that depends on itself is never ready.
-/
theorem research_plan_unsound :
    (∃ output,
      (Sample.proposing
          (Sample.planJson Sample.writingJson
            Sample.gatheringJson)
          (Sample.planOf
            [Sample.writing, Sample.gathering])).plan
          (.empty "session") Sample.goal =
        some output ∧
      ¬SoundPlan (.empty "session")
        (Sample.planOf [Sample.writing, Sample.gathering])
        (tasksOf output.events)) ∧
    ∃ output,
      (Sample.proposing
          (Sample.planJson Sample.gatheringJson
            Sample.circularJson)
          (Sample.planOf
            [Sample.gathering, Sample.circular])).plan
          (.empty "session") Sample.goal =
        some output ∧
      ¬SoundPlan (.empty "session")
        (Sample.planOf [Sample.gathering, Sample.circular])
        (tasksOf output.events) := by
  refine ⟨⟨_, Sample.proposing_plan
      (Sample.extractJson_planJson _ _), ?_⟩,
    ⟨_, Sample.proposing_plan
      (Sample.extractJson_planJson _ _), ?_⟩⟩
  · intro hSound
    have hOrder : Acyclic
        (dependencies
          (Sample.planOf
            [Sample.writing, Sample.gathering])) := by
      apply Graphs.acyclic_of_rank
      refine ⟨fun id => if id = "write" then 1 else 0, ?_⟩
      intro node other hUse
      obtain ⟨uses, hMem, hOther⟩ := hUse
      simp only [dependencies, Sample.planOf, Sample.writing,
        Sample.gathering, List.map_cons, List.map_nil,
        List.mem_cons, Prod.mk.injEq, List.not_mem_nil,
        or_false] at hMem
      rcases hMem with hWrite | hGather
      · rw [hWrite.1]
        rw [hWrite.2, List.mem_singleton] at hOther
        rw [hOther]
        decide
      · rw [hGather.2] at hOther
        cases hOther
    have hExact := hSound.exact (by decide) hOrder
    cases hExact with
    | cons hFirst _ =>
        have hBlocked := hFirst.blockedBy
        revert hBlocked
        decide +kernel
  · intro hSound
    apply hSound.acyclic "task-2"
    refine .single ⟨["task-2"], ?_, List.mem_cons_self⟩
    decide +kernel

end RainEngine.Cognition
