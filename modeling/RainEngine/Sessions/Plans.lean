import RainEngine.Advances.Footprint
import RainEngine.Logs.Views
import RainEngine.Sessions.Runs

/-
  This file is about the versions of execution plans. Taking a
  step of a plan appends a new version of it, and the newest
  version that is not completed is the active one. The version
  that completes a plan leaves the version before it active.

  Key definitions include:
    * `planVersions`
    * `VersionsOnce`
    * `Steady`
    * `planning`

  Key theorems include:
    * `Steady.taken`
    * `Steady.once`
    * `planning_rules`
    * `planning_advance`
-/

namespace RainEngine

open Effects

------------------------------------------------------------
-- Versions Of Plans
------------------------------------------------------------

/- The versions of all plans, the oldest first. -/
def planVersions
    (records : List SessionRecord) :
    List ExecutionPlanRecord :=
  records.filterMap SessionRecord.asExecutionPlan

def versionsOf
    (planId : String)
    (records : List SessionRecord) :
    List ExecutionPlanRecord :=
  (planVersions records).filter (·.planId = planId)

/-
  The versions of a plan count its steps, and a completed plan
  is not active.
-/
structure VersionsOnce (records : List SessionRecord) : Prop where
  inOrder : ∀ planId,
    (versionsOf planId records).map (·.currentStepIndex) =
      List.range (versionsOf planId records).length
  settled : ∀ plan, .executionPlan plan ∈ records →
    plan.completedAt = true →
      ∀ active, activeExecutionPlan records = some active →
        active.planId ≠ plan.planId

/- What an advance may append as a version of a plan. -/
inductive PlanStep (records : List SessionRecord) :
    ExecutionPlanRecord → Prop where
  | proposed {plan : ExecutionPlanRecord}
      (hFresh : ∀ old, .executionPlan old ∈ records →
        old.planId ≠ plan.planId)
      (hIndex : plan.currentStepIndex = 0)
      (hOpen : plan.completedAt = false) :
      PlanStep records plan
  | taken {plan : ExecutionPlanRecord} {action : AgentAction}
      (hDue : duePlanStep records = some (plan, action)) :
      PlanStep records plan.next

section Versions

variable {records more : List SessionRecord}
variable {record : SessionRecord}
variable {plan : ExecutionPlanRecord}
variable {planId : String}

theorem asExecutionPlan_eq_some :
    record.asExecutionPlan = some plan ↔
      record = .executionPlan plan := by
  cases record <;> simp [SessionRecord.asExecutionPlan]

theorem mem_planVersions :
    plan ∈ planVersions records ↔
      .executionPlan plan ∈ records := by
  unfold planVersions
  rw [List.mem_filterMap]
  constructor
  · rintro ⟨record, hMem, hPlan⟩
    rw [asExecutionPlan_eq_some] at hPlan
    rw [← hPlan]
    exact hMem
  · intro hMem
    exact ⟨_, hMem, rfl⟩

theorem planVersions_snoc_plan :
    planVersions (records ++ [.executionPlan plan]) =
      planVersions records ++ [plan] := by
  unfold planVersions
  rw [List.filterMap_append]
  rfl

theorem planVersions_snoc_other
    (hOther : record.asExecutionPlan = none) :
    planVersions (records ++ [record]) =
      planVersions records := by
  unfold planVersions
  rw [List.filterMap_append, List.filterMap_cons, hOther,
    List.filterMap_nil, List.append_nil]

theorem versionsOf_snoc :
    versionsOf planId (records ++ [.executionPlan plan]) =
      versionsOf planId records ++
        if plan.planId = planId then [plan] else [] := by
  unfold versionsOf
  rw [planVersions_snoc_plan, List.filter_append]
  by_cases hSame : plan.planId = planId
  · rw [if_pos hSame, List.filter_cons_of_pos (by simpa),
      List.filter_nil]
  · rw [if_neg hSame, List.filter_cons_of_neg (by simpa),
      List.filter_nil]

/- The active plan only depends on the versions of plans. -/
theorem activeExecutionPlan_versions :
    activeExecutionPlan records =
      (planVersions records).findSomeRev? fun plan =>
        if plan.completedAt then none else some plan := by
  induction records using List.reverseRecOn with
  | nil => rfl
  | append_singleton records record ih =>
      unfold activeExecutionPlan at ih ⊢
      rw [Logs.findSomeRev?_snoc, ih]
      cases record with
      | executionPlan plan =>
          rw [planVersions_snoc_plan, Logs.findSomeRev?_snoc]
      | _ =>
          rw [planVersions_snoc_other rfl]
          exact Option.none_or

theorem duePlanStep_congr
    (hSame : planVersions records = planVersions more) :
    duePlanStep records = duePlanStep more := by
  unfold duePlanStep
  rw [activeExecutionPlan_versions,
    activeExecutionPlan_versions, hSame]

/- An active plan is a version that is not completed. -/
theorem active_mem
    (hActive : activeExecutionPlan records = some plan) :
    .executionPlan plan ∈ records ∧
      plan.completedAt = false := by
  rcases Logs.findSomeRev?_eq_some_iff.mp hActive with
    ⟨before, record, after, hRecords, hPlan, _⟩
  cases record with
  | executionPlan found =>
      simp only at hPlan
      split at hPlan
      · cases hPlan
      · rename_i hOpen
        cases hPlan
        refine ⟨?_, by simpa using hOpen⟩
        rw [hRecords]
        exact List.mem_append_right _ List.mem_cons_self
  | _ => cases hPlan

theorem due_active
    {action : AgentAction}
    (hDue : duePlanStep records = some (plan, action)) :
    activeExecutionPlan records = some plan ∧
      plan.currentStepIndex < plan.steps.length := by
  unfold duePlanStep at hDue
  rw [Option.bind_eq_some_iff] at hDue
  rcases hDue with ⟨active, hActive, hStep⟩
  rw [Option.map_eq_some_iff] at hStep
  rcases hStep with ⟨step, hGet, hEq⟩
  cases hEq
  rcases List.getElem?_eq_some_iff.mp hGet with ⟨hLess, _⟩
  exact ⟨hActive, hLess⟩

end Versions

------------------------------------------------------------
-- Steady Ledgers
------------------------------------------------------------

/- No plan is completed, and every plan goes on in order. -/
structure Steady (records : List SessionRecord) : Prop where
  unfinished : ∀ plan, .executionPlan plan ∈ records →
    plan.completedAt = false
  inOrder : ∀ planId,
    (versionsOf planId records).map (·.currentStepIndex) =
      List.range (versionsOf planId records).length

section Steady

variable {records before : List SessionRecord}
variable {record : SessionRecord}
variable {plan : ExecutionPlanRecord}
variable {planId : String}

theorem Steady.of_unplanned
    (hNone : ∀ plan, .executionPlan plan ∉ records) :
    Steady records := by
  have hNil : planVersions records = [] := by
    apply List.eq_nil_iff_forall_not_mem.mpr
    intro plan hMem
    exact hNone plan (mem_planVersions.mp hMem)
  refine ⟨fun plan hMem => (hNone plan hMem).elim, ?_⟩
  intro planId
  unfold versionsOf
  rw [hNil]
  rfl

/- In a steady ledger the newest version is active. -/
theorem Steady.active
    (hSteady : Steady records) :
    activeExecutionPlan records =
      (planVersions records).getLast? := by
  rw [activeExecutionPlan_versions]
  cases hLast : (planVersions records).getLast? with
  | none =>
      rw [List.getLast?_eq_none_iff] at hLast
      rw [hLast]
      rfl
  | some plan =>
      rw [List.getLast?_eq_some_iff] at hLast
      rcases hLast with ⟨init, hInit⟩
      have hMem : .executionPlan plan ∈ records := by
        rw [← mem_planVersions, hInit]
        simp
      rw [hInit, Logs.findSomeRev?_snoc,
        hSteady.unfinished plan hMem]
      rfl

/- The active plan has as many versions as steps taken, and one. -/
theorem Steady.active_length
    (hSteady : Steady records)
    (hActive : activeExecutionPlan records = some plan) :
    (versionsOf plan.planId records).length =
      plan.currentStepIndex + 1 := by
  rw [hSteady.active, List.getLast?_eq_some_iff] at hActive
  rcases hActive with ⟨init, hInit⟩
  have hVersions :
      versionsOf plan.planId records =
        init.filter (·.planId = plan.planId) ++ [plan] := by
    unfold versionsOf
    rw [hInit, List.filter_append,
      List.filter_cons_of_pos (by simp), List.filter_nil]
  have hOrder := hSteady.inOrder plan.planId
  rw [hVersions, List.map_append, List.length_append,
    List.length_singleton, List.range_succ] at hOrder
  have hIndex := List.append_inj_right' hOrder rfl
  rw [List.map_singleton, List.singleton_inj] at hIndex
  rw [hVersions, List.length_append, List.length_singleton]
  omega

/- A version that continues the count of its plan. -/
theorem Steady.snoc
    (hSteady : Steady records)
    (hOpen : plan.completedAt = false)
    (hIndex :
      plan.currentStepIndex =
        (versionsOf plan.planId records).length) :
    Steady (records ++ [.executionPlan plan]) := by
  refine ⟨?_, ?_⟩
  · intro other hMem
    rcases List.mem_append.mp hMem with hOld | hLast
    · exact hSteady.unfinished other hOld
    · rw [List.mem_singleton] at hLast
      cases hLast
      exact hOpen
  · intro planId
    rw [versionsOf_snoc]
    by_cases hSame : plan.planId = planId
    · rw [if_pos hSame, List.map_append, List.map_singleton,
        hSteady.inOrder planId, List.length_append,
        List.length_singleton, List.range_succ, hIndex, hSame]
    · rw [if_neg hSame, List.append_nil]
      exact hSteady.inOrder planId

theorem Steady.snoc_other
    (hSteady : Steady records)
    (hOther : record.asExecutionPlan = none) :
    Steady (records ++ [record]) := by
  refine ⟨?_, ?_⟩
  · intro plan hMem
    rcases List.mem_append.mp hMem with hOld | hLast
    · exact hSteady.unfinished plan hOld
    · rw [List.mem_singleton] at hLast
      rw [← hLast] at hOther
      cases hOther
  · intro planId
    unfold versionsOf
    rw [planVersions_snoc_other hOther]
    exact hSteady.inOrder planId

/- A plan that is proposed has no version yet. -/
theorem Steady.proposed
    (hSteady : Steady records)
    (hFresh : ∀ old, .executionPlan old ∈ records →
      old.planId ≠ plan.planId)
    (hIndex : plan.currentStepIndex = 0)
    (hOpen : plan.completedAt = false) :
    Steady (records ++ [.executionPlan plan]) := by
  have hNil : versionsOf plan.planId records = [] := by
    apply List.filter_eq_nil_iff.mpr
    intro old hMem
    have hOld := hFresh old (mem_planVersions.mp hMem)
    simpa using hOld
  apply hSteady.snoc hOpen
  rw [hNil, hIndex]
  rfl

/- A step that is not the last keeps the ledger steady. -/
theorem Steady.taken
    {action : AgentAction}
    (hSteady : Steady records)
    (hDue : duePlanStep records = some (plan, action))
    (hMore : plan.steps.length ≠ plan.currentStepIndex + 1) :
    Steady (records ++ [.executionPlan plan.next]) := by
  rcases due_active hDue with ⟨hActive, hLess⟩
  have hOpen := (active_mem hActive).2
  apply hSteady.snoc
  · unfold ExecutionPlanRecord.next
    rw [hOpen, Bool.false_or, decide_eq_false_iff_not]
    omega
  · exact (hSteady.active_length hActive).symm

/- In a steady ledger every plan is taken once. -/
theorem Steady.once
    (hSteady : Steady records)
    (hPrefix : before <+: records) :
    VersionsOnce before := by
  refine ⟨?_, ?_⟩
  · intro planId
    have hVersions :
        (versionsOf planId before).map (·.currentStepIndex) <+:
          (versionsOf planId records).map
            (·.currentStepIndex) :=
      ((hPrefix.filterMap _).filter _).map _
    rw [hSteady.inOrder planId] at hVersions
    have hTake := List.prefix_iff_eq_take.mp hVersions
    rw [List.take_range, List.length_map] at hTake
    have hLength := hVersions.length_le
    rw [List.length_range, List.length_map] at hLength
    rw [hTake, Nat.min_eq_left hLength]
  · intro plan hMem hDone
    have hOpen := hSteady.unfinished plan (hPrefix.mem hMem)
    rw [hOpen] at hDone
    cases hDone

/- The version that completes a plan leaves it active. -/
theorem not_once_of_last
    {action : AgentAction}
    (hDue : duePlanStep records = some (plan, action))
    (hLast : plan.steps.length = plan.currentStepIndex + 1) :
    ¬VersionsOnce (records ++ [.executionPlan plan.next]) := by
  intro hOnce
  rcases due_active hDue with ⟨hActive, _⟩
  have hDone : plan.next.completedAt = true := by
    unfold ExecutionPlanRecord.next
    rw [Bool.or_eq_true, decide_eq_true_iff]
    right
    omega
  have hStill :
      activeExecutionPlan
          (records ++ [.executionPlan plan.next]) =
        some plan := by
    unfold activeExecutionPlan at hActive ⊢
    rw [Logs.findSomeRev?_snoc, hActive]
    simp only [hDone, if_true]
    rfl
  exact hOnce.settled plan.next (by simp) hDone plan hStill rfl

end Steady

------------------------------------------------------------
-- The Assertions About Plans
------------------------------------------------------------

/- The identifiers of the recorded plans were handed out. -/
def PlansIssued (w : World) : Prop :=
  ∀ plan, .executionPlan plan ∈ w.ledger →
    ∃ uuid ∈ w.issued, plan.planId = "plan-" ++ uuid

/- An up-to-date copy of the ledger has its plan versions. -/
def PlansCopied (w : World) : Stage → Prop
| .viewing fresh records =>
    fresh = true → planVersions records = planVersions w.ledger
| .acting ready context =>
    ready = true →
      planVersions context.records = planVersions w.ledger
| .finished _ _ => True

/- A version is only appended where the ledger allows it. -/
def PlansFollow (w : World) (op : Op) : Prop :=
  PlansIssued w ∧
    ∀ plan, op = .append (.executionPlan plan) →
      PlanStep w.ledger plan

def planning : Assertions where
  holds stage w := PlansIssued w ∧ PlansCopied w stage
  request := PlansFollow
  results ready context _ w :=
    PlansIssued w ∧ PlansCopied w (.acting ready context)
  returned _ w := PlansIssued w
  thrown w := PlansIssued w

section Planning

variable {engine : AgentEngine}
variable {record : SessionRecord}
variable {stage : Stage}
variable {w w' : World}

theorem PlansIssued.issue
    {uuid : String}
    (hIssued : PlansIssued w) :
    PlansIssued (w.issue uuid) := by
  intro plan hMem
  rcases hIssued plan hMem with ⟨old, hOld, hId⟩
  exact ⟨old, List.mem_cons_of_mem _ hOld, hId⟩

theorem PlansIssued.append_other
    (hIssued : PlansIssued w)
    (hOther : record.asExecutionPlan = none) :
    PlansIssued (w.append record) := by
  intro plan hMem
  rcases List.mem_append.mp hMem with hOld | hLast
  · exact hIssued plan hOld
  · rw [List.mem_singleton] at hLast
    rw [← hLast] at hOther
    cases hOther

theorem PlansIssued.append_plan
    {plan : ExecutionPlanRecord}
    {uuid : String}
    (hIssued : PlansIssued w)
    (hUuid : uuid ∈ w.issued)
    (hId : plan.planId = "plan-" ++ uuid) :
    PlansIssued (w.append (.executionPlan plan)) := by
  intro other hMem
  rcases List.mem_append.mp hMem with hOld | hLast
  · exact hIssued other hOld
  · rw [List.mem_singleton] at hLast
    cases hLast
    exact ⟨uuid, hUuid, hId⟩

/- A new identifier gives a new plan. -/
theorem PlansIssued.fresh
    {uuid : String}
    (hIssued : PlansIssued w)
    (hFresh : uuid ∉ w.issued) :
    ∀ old, .executionPlan old ∈ w.ledger →
      old.planId ≠ "plan-" ++ uuid := by
  intro old hMem hSame
  rcases hIssued old hMem with ⟨oldUuid, hOld, hId⟩
  rw [hSame, String.append_right_inj] at hId
  rw [hId] at hFresh
  exact hFresh hOld

/- A copy stays up to date when both get the record. -/
theorem PlansCopied.push
    (hCopied : PlansCopied w stage)
    (hOther : record.asExecutionPlan = none) :
    PlansCopied (w.append record) (stage.push record) := by
  cases stage with
  | viewing fresh records => exact nofun
  | acting ready context =>
      intro hReady
      have hSame := hCopied hReady
      rw [World.append_ledger, planVersions_snoc_other hOther,
        ← hSame]
      exact planVersions_snoc_other hOther
  | finished context outcome => trivial

theorem PlansCopied.lag
    (hCopied : PlansCopied w stage) :
    PlansCopied w' stage.lag := by
  cases stage with
  | viewing fresh records => exact nofun
  | acting ready context => exact nofun
  | finished context outcome => trivial

/- A record that is no plan may lag behind in the copy. -/
theorem PlansCopied.append_other
    (hCopied : PlansCopied w stage)
    (hOther : record.asExecutionPlan = none) :
    PlansCopied (w.append record) stage := by
  have hSame :
      planVersions (w.ledger ++ [record]) =
        planVersions w.ledger :=
    planVersions_snoc_other hOther
  cases stage with
  | viewing fresh records =>
      intro hFresh
      rw [World.append_ledger, hSame]
      exact hCopied hFresh
  | acting ready context =>
      intro hReady
      rw [World.append_ledger, hSame]
      exact hCopied hReady
  | finished context outcome => trivial

theorem plansFollow_other
    (hIssued : PlansIssued w)
    (hOther : record.asExecutionPlan = none) :
    PlansFollow w (.append record) := by
  refine ⟨hIssued, ?_⟩
  intro plan hSame
  cases hSame
  cases hOther

theorem plansFollow_silent
    {op : Op}
    (hIssued : PlansIssued w)
    (hSilent : op.Silent) :
    PlansFollow w op := by
  refine ⟨hIssued, ?_⟩
  intro plan hSame
  rw [hSame] at hSilent
  exact hSilent.elim

theorem IsNote.not_plan
    (hNote : IsNote record) :
    record.asExecutionPlan = none := by
  cases record <;> first | rfl | exact hNote.elim

theorem IsTrace.not_plan
    (hTrace : IsTrace record) :
    record.asExecutionPlan = none := by
  cases record <;> first | rfl | exact hTrace.elim

theorem planning_batch
    {context : AgentContext}
    {step : Nat}
    {calls : List PlannedSkillCall}
    {approvalOverride : Bool}
    (hHolds : planning.holds stage w) :
    Safe reliable planning.request
      (fun _ w' => planning.holds stage w')
      (fun _ w' => PlansIssued w')
      (executePlannedCalls engine context step calls
        approvalOverride) w := by
  refine Safe.mono (fun _ _ h => h) (fun _ _ h => h)
    (fun _ _ h => h.1)
    (OnHost.reliable.safe_batch (I := planning.holds stage)
      ?_ ?_ ?_ hHolds)
  · intro w' op hKept hBatch
    cases op with
    | append record =>
        exact plansFollow_other hKept.1 hBatch.not_plan
    | _ => exact plansFollow_silent hKept.1 trivial
  · intro w' record hKept hTrace
    exact ⟨hKept.1.append_other hTrace.not_plan,
      hKept.2.append_other hTrace.not_plan⟩
  · intro w' uuid hKept _
    refine ⟨hKept.1.issue, ?_⟩
    cases stage <;> exact hKept.2

theorem planning_rules :
    Rules reliable engine planning where
  quiet := by
    intro stage w op hHolds hQuiet
    apply plansFollow_silent hHolds.1
    cases op <;> trivial
  issue := by
    intro stage w uuid hHolds _
    refine ⟨hHolds.1.issue, ?_⟩
    cases stage <;> exact hHolds.2
  lag := fun hHolds => ⟨hHolds.1, hHolds.2.lag⟩
  note := fun hHolds hNote =>
    plansFollow_other hHolds.1 hNote.not_plan
  noted := by
    intro stage w record hHolds hNote
    have hIssued := hHolds.1.append_other hNote.not_plan
    exact ⟨⟨hIssued, hHolds.2.lag⟩, hIssued,
      hHolds.2.push hNote.not_plan⟩
  fresh := fun hHolds => ⟨hHolds.1, fun _ => rfl⟩
  stale := fun _ hFails =>
    (not_storeFails_reliable _ hFails).elim
  summarize := fun hHolds =>
    plansFollow_silent hHolds.1 trivial
  propose := by
    intro flag records w uuid plan hHolds hFresh hId hIndex
      hOpen
    have hNew := hHolds.1.fresh hFresh
    rw [← hId] at hNew
    refine ⟨⟨hHolds.1.issue, ?_⟩, ?_, nofun⟩
    · intro other hSame
      cases hSame
      exact .proposed hNew hIndex hOpen
    · exact hHolds.1.issue.append_plan List.mem_cons_self hId
  ask := fun hHolds => plansFollow_silent hHolds.1 trivial
  planStep := by
    intro context w plan action hHolds hDue
    rw [duePlanStep_congr (hHolds.2 rfl)] at hDue
    rcases active_mem (due_active hDue).1 with ⟨hMem, _⟩
    rcases hHolds.1 plan hMem with ⟨uuid, hUuid, hId⟩
    refine ⟨⟨hHolds.1, ?_⟩, ?_, nofun⟩
    · intro other hSame
      cases hSame
      exact .taken hDue
    · exact hHolds.1.append_plan hUuid hId
  await := fun hHolds _ =>
    ⟨plansFollow_other hHolds.1 rfl,
      hHolds.1.append_other rfl, hHolds.2.push rfl⟩
  resolve := fun _ hHolds _ _ =>
    ⟨plansFollow_other hHolds.1 rfl,
      hHolds.1.append_other rfl, hHolds.2.append_other rfl⟩
  reject := fun hHolds => hHolds
  batch := by
    intro ready context w step calls override hHolds _
    refine Safe.mono (fun _ _ h => h) ?_ (fun _ _ h => h)
      (planning_batch hHolds)
    intro execution w' hKept
    cases execution <;> exact hKept
  result := by
    intro ready context result rest w hHolds
    have hPush : PlansCopied (w.append (.toolResult result))
        ((Stage.acting ready context).push
          (.toolResult result)) :=
      hHolds.2.push rfl
    exact ⟨plansFollow_other hHolds.1 rfl,
      hHolds.1.append_other rfl, hPush⟩
  recorded := fun hHolds => hHolds
  lostResult := fun _ hFails =>
    (not_storeFails_reliable _ hFails).elim
  outcome := fun hHolds _ _ =>
    ⟨plansFollow_other hHolds.1 rfl,
      hHolds.1.append_other rfl, trivial⟩
  lostOutcome := fun _ _ _ hFails =>
    (not_storeFails_reliable _ hFails).elim
  project := fun hHolds _ =>
    ⟨plansFollow_silent hHolds.1 trivial, hHolds⟩
  done := fun hHolds => hHolds.1
  progress := fun hHolds => hHolds.1
  failed := fun _ hFails =>
    (not_storeFails_reliable _ hFails).elim
  thrown := fun hHolds _ => hHolds.1

/- Along every advance the versions of plans follow. -/
theorem planning_advance
    {request : AdvanceRequest}
    (hIssued : PlansIssued w) :
    Ends reliable planning (advance engine request) w := by
  have hRules : Rules reliable engine planning :=
    planning_rules
  have hSteps := hRules.steps .reliable
  cases request with
  | trigger request =>
      apply OnHost.reliable.safe_advanceTrigger
      · exact plansFollow_silent hIssued trivial
      · intro triggerId _ key
        exact plansFollow_silent hIssued.issue trivial
      · intro triggerId _ prior _
        exact hIssued.issue
      · intro triggerId _ _
        refine ⟨plansFollow_other hIssued.issue rfl,
          fun _ _ => hIssued.issue, ?_⟩
        have hTriggered :
            PlansIssued
              ((w.issue triggerId).append
                (.trigger (request.record triggerId))) :=
          hIssued.issue.append_other rfl
        apply hSteps.safe_processTrigger .reliable
        · intro cached _
          exact ⟨hTriggered, nofun⟩
        · exact ⟨hTriggered, nofun⟩
        · intro error _
          exact hTriggered
        · intro snapshot w' hHolds
          exact hHolds
  | continueWith request =>
      apply OnHost.reliable.safe_advanceContinue
      · exact plansFollow_silent hIssued trivial
      · intro error _
        exact hIssued
      · intro _
        refine ⟨plansFollow_silent hIssued trivial, ?_⟩
        intro triggerId _
        exact hIssued.issue
      · intro trigger _
        apply hSteps.safe_continueTrigger .reliable
        exact ⟨hIssued, fun _ => rfl⟩

end Planning

end RainEngine
