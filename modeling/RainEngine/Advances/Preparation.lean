import RainEngine.Advances.Notes

/-
  This file carries a property of the ledger through the
  preparation of a step: the intent of the trigger, the
  planner's events and plan, and the summary. Where the
  session can be loaded, the step starts from a snapshot that
  has the property too.

  Key definitions include:
    * `IsPreparation`
    * `Preparing`

  Key theorems include:
    * `Preparing.safe_runPlanner`
    * `Preparing.safe_persistKernelEvents`
    * `Preparing.safe_processTrigger`
-/

namespace RainEngine

open Effects

------------------------------------------------------------
-- Preparations
------------------------------------------------------------

/- The records of a preparation, proposed plans apart. -/
def IsPreparation : SessionRecord → Prop
| .triggerIntent _ => True
| .kernelEvent _ => True
| .summary _ => True
| _ => False

/- The record of a plan as the planner has proposed it. -/
structure ExecutionPlanRecord.Proposes
    (record : ExecutionPlanRecord)
    (plan : ExecutionPlan) : Prop where
  steps : record.steps = plan.steps
  start : record.currentStepIndex = 0
  isOpen : record.completedAt = false

/-
  The requests of a preparation are allowed, and what it
  appends keeps the property of the ledger.
-/
structure Preparing
    (M : Machine Op Answer World)
    (engine : AgentEngine)
    (P : World → Op → Prop)
    (I : List SessionRecord → Prop) : Prop where
  loads : ∀ w, ¬LoadFails M w
  quiet : ∀ {w op}, op.Quiet → P w op
  summarize : engine.hasPlanner = true →
    ∀ {w request}, P w (.generateAction none request)
  request : ∀ {w record},
    IsPreparation record → P w (.append record)
  keeps : ∀ {records record},
    IsPreparation record → I records →
      I (records ++ [record])
  proposed : ∀ {w state trigger output plan record},
    M.allowed w (.plan state trigger) output →
      output.proposedPlan = some plan →
      record.Proposes plan →
        (∀ w, P w (.append (.executionPlan record))) ∧
          ∀ records, I records →
            I (records ++ [.executionPlan record])

namespace Preparing

variable {M : Machine Op Answer World}
variable {engine : AgentEngine}
variable {P : World → Op → Prop}
variable {I : List SessionRecord → Prop}
variable {snapshot : SessionSnapshot}
variable {w : World}
variable (hHost : OnHost M)
variable (hPrepares : Preparing M engine P I)

/- A part after which the ledger has the property. -/
abbrev Kept
    {α : Type}
    (M : Machine Op Answer World)
    (P : World → Op → Prop)
    (I : List SessionRecord → Prop)
    (p : EngineM α)
    (w : World) :
    Prop :=
  Safe M P (fun _ w' => I w'.ledger) (fun _ _ => True) p w

/- The same for the snapshot it returns. -/
abbrev Viewed
    (M : Machine Op Answer World)
    (P : World → Op → Prop)
    (I : List SessionRecord → Prop)
    (p : EngineM SessionSnapshot)
    (w : World) :
    Prop :=
  Safe M P
    (fun snapshot w' => I snapshot.records ∧ I w'.ledger)
    (fun _ _ => True) p w

include hHost hPrepares

theorem kept_append
    {record : SessionRecord}
    (hRecord : IsPreparation record)
    (hKept : I w.ledger) :
    Kept M P I (append record) w := by
  apply hHost.safe_append (hPrepares.request hRecord)
  · exact hPrepares.keeps hRecord hKept
  · intro error _
    exact hKept

theorem kept_newUuid
    (hKept : I w.ledger) :
    Kept M P I newUuid w := by
  apply hHost.safe_newUuid (hPrepares.quiet trivial)
  intro uuid _
  exact hKept

theorem viewed_refreshSnapshot
    (hKept : I w.ledger) :
    Viewed M P I (refreshSnapshot snapshot) w := by
  unfold refreshSnapshot Viewed
  rw [Safe.bind_iff]
  apply hHost.safe_loadSession (hPrepares.quiet trivial)
  · exact ⟨hKept, hKept⟩
  · intro error hFails
    exact (hPrepares.loads w hFails).elim

theorem kept_appendPlannedEvents
    {events : List KernelEvent}
    (hKept : I w.ledger) :
    Kept M P I (appendPlannedEvents events) w := by
  induction events generalizing w with
  | nil => exact hKept
  | cons event rest ih =>
      unfold appendPlannedEvents
      apply Safe.bind (hPrepares.kept_newUuid hHost hKept)
      intro eventId w' hKept
      apply Safe.bind
        (hPrepares.kept_append hHost (by trivial) hKept)
      intro _ w'' hKept
      exact ih hKept

theorem kept_appendProposedPlan
    {output : PlannerOutput}
    {state : AgentStateSnapshot}
    {trigger : AgentTrigger}
    {w' : World}
    (hAllowed : M.allowed w (.plan state trigger) output)
    (hKept : I w'.ledger) :
    Kept M P I (appendProposedPlan output.proposedPlan)
      w' := by
  cases hPlan : output.proposedPlan with
  | none => exact hKept
  | some plan =>
      unfold appendProposedPlan
      apply Safe.bind (hPrepares.kept_newUuid hHost hKept)
      intro planId w'' hKept
      have hProposes :
          ExecutionPlanRecord.Proposes
            { planId := "plan-" ++ planId
              objective := plan.objective
              steps := plan.steps
              currentStepIndex := 0
              completedAt := false } plan := ⟨rfl, rfl, rfl⟩
      have hProposed :=
        hPrepares.proposed hAllowed hPlan hProposes
      rw [Safe.bind_iff]
      apply hHost.safe_append (hProposed.1 w'')
      · exact hProposed.2 _ hKept
      · intro error _
        exact hKept

theorem kept_summarizeHistory
    {policy : EnginePolicy}
    {trigger : AgentTrigger}
    (hPlanner : engine.hasPlanner = true)
    (hKept : I w.ledger) :
    Kept M P I
      (summarizeHistory engine snapshot policy trigger)
      w := by
  unfold summarizeHistory Kept
  rw [Safe.bind_iff, safe_perform]
  refine ⟨hPrepares.summarize hPlanner, ?_⟩
  intro answer _
  rw [hHost.next]
  split
  · apply Safe.bind (hPrepares.kept_newUuid hHost hKept)
    intro summaryId w' hKept
    exact hKept
  · exact hKept

theorem viewed_summarizeIfLong
    {request : ProcessRequest}
    (hPlanner : engine.hasPlanner = true)
    (hViewed : I snapshot.records)
    (hKept : I w.ledger) :
    Viewed M P I (summarizeIfLong engine request snapshot)
      w := by
  unfold summarizeIfLong
  split
  · apply Safe.bind
      (hPrepares.kept_summarizeHistory hHost hPlanner hKept)
    intro summary w' hKept
    cases summary with
    | none => exact ⟨hViewed, hKept⟩
    | some summary =>
        apply Safe.bind
          (hPrepares.kept_append hHost (by trivial) hKept)
        intro _ w'' hKept
        exact hPrepares.viewed_refreshSnapshot hHost hKept
  · exact ⟨hViewed, hKept⟩

theorem viewed_runPlanner
    {request : ProcessRequest}
    (hViewed : I snapshot.records)
    (hKept : I w.ledger) :
    Viewed M P I (runPlanner engine request snapshot) w := by
  unfold runPlanner
  split
  · rename_i hPlanner
    unfold Viewed
    rw [Safe.bind_iff]
    apply hHost.safe_quiet (.plan _ _) trivial nofun
      (hPrepares.quiet trivial)
    intro output hAllowed
    apply Safe.bind
      (hPrepares.kept_appendPlannedEvents hHost hKept)
    intro _ w' hKept
    apply Safe.bind
      (hPrepares.kept_appendProposedPlan hHost hAllowed hKept)
    intro _ w'' hKept
    dsimp only
    split
    · apply Safe.bind
        (hPrepares.viewed_refreshSnapshot hHost hKept)
      intro refreshed w' hBoth
      exact hPrepares.viewed_summarizeIfLong hHost hPlanner
        hBoth.1 hBoth.2
    · exact hPrepares.viewed_summarizeIfLong hHost hPlanner
        hViewed hKept
  · exact ⟨hViewed, hKept⟩

/- The events of a trigger are appended and pushed. -/
theorem safe_persistKernelEvents
    {context : AgentContext}
    {events : List KernelEventRecord}
    (hKept : I w.ledger) :
    Safe M P
      (fun context' w' =>
        context'.records = context.records ++
            events.map SessionRecord.kernelEvent ∧
          context'.metadata = context.metadata ∧
          I w'.ledger)
      (fun _ _ => True)
      (persistKernelEvents events context) w := by
  induction events generalizing context w with
  | nil => exact ⟨(List.append_nil _).symm, rfl, hKept⟩
  | cons event rest ih =>
      unfold persistKernelEvents appendAndPush
      rw [Program.bind_assoc, Safe.bind_iff]
      apply hHost.safe_appendOrFail
        (hPrepares.request (by trivial))
      · refine Safe.mono (fun _ _ h => h) ?_
          (fun _ _ h => h)
          (ih (hPrepares.keeps (by trivial) hKept))
        intro context' w' hPushed
        rcases hPushed with ⟨hRecords, hMetadata, hKept⟩
        refine ⟨?_, hMetadata, hKept⟩
        rw [hRecords]
        simp [AgentContext.push]
      · intro error _
        trivial

/-
  A trigger that has been recorded starts its step from a
  snapshot with the property.
-/
theorem safe_processTrigger
    {Q : AdvanceResult → World → Prop}
    {request : ProcessRequest}
    {trigger : TriggerRecord}
    (hKept : I w.ledger)
    (hStep : ∀ (snapshot : SessionSnapshot) (w' : World),
      I snapshot.records → I w'.ledger →
        Safe M P Q (fun _ _ => True)
          (triggerStep engine request trigger.triggerId
            snapshot) w') :
    Safe M P Q (fun _ _ => True)
      (processTrigger engine request trigger) w := by
  have hNoted : ∀ snapshot : SessionSnapshot,
      Safe M P Q (fun _ _ => True)
        (append (.triggerIntent
            { triggerId := trigger.triggerId
              intent := classifyTriggerIntent
                engine.rendering request.trigger }) >>=
          fun _ => refreshSnapshot snapshot >>=
            fun snapshot =>
              runPlanner engine request snapshot >>=
                fun snapshot =>
                  triggerStep engine request
                    trigger.triggerId snapshot) w := by
    intro snapshot
    apply Safe.bind
      (hPrepares.kept_append hHost (by trivial) hKept)
    intro _ w' hKept
    apply Safe.bind
      (hPrepares.viewed_refreshSnapshot hHost hKept)
    intro refreshed w'' hBoth
    apply Safe.bind
      (hPrepares.viewed_runPlanner hHost hBoth.1 hBoth.2)
    intro planned w' hBoth
    exact hStep planned w' hBoth.1 hBoth.2
  unfold processTrigger loadTriggerSnapshot
  rw [Program.bind_assoc, Safe.bind_iff]
  apply hHost.safe_quiet .getProjection trivial nofun
    (hPrepares.quiet trivial)
  intro cached _
  cases cached with
  | some cached => exact hNoted _
  | none =>
      dsimp only
      rw [Safe.bind_iff]
      apply hHost.safe_loadSession (hPrepares.quiet trivial)
      · exact hNoted _
      · intro error hFails
        exact (hPrepares.loads w hFails).elim

end Preparing

end RainEngine
