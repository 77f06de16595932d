import RainEngine.Effects.Traces
import RainEngine.Batches.Graphs
import RainEngine.Advances.Assertions

/-
  This file gives the rule for a batch that an assertion does
  not look into: what keeps under the records a batch appends
  holds when the batch has ended.

  Key definitions include:
    * `HostTrace`
    * `IsTrace`
    * `Op.OfBatch`

  Key theorems include:
    * `uses_batch`
    * `OnHost.safe_batch`
-/

namespace RainEngine

open Effects

/- What an advance exchanges with its host. -/
abbrev HostTrace : Type :=
  List (Exchange Answer)

/- The records a batch appends on its own. -/
def IsTrace : SessionRecord → Prop
| .toolExecutionGraph _ => True
| .toolNodeCheckpoint _ => True
| .skillInputValidation _ => True
| .toolCall _ => True
| _ => False

/- The requests of a batch. -/
def Op.OfBatch : Op → Prop
| .append record => IsTrace record
| .newUuid => True
| .execute _ _ => True
| .sleep _ => True
| .completions _ => True
| .outOfFuel => True
| _ => False

section Footprint

variable {engine : AgentEngine}
variable {context : AgentContext}
variable {step : Nat}
variable {calls : List PlannedSkillCall}
variable {approvalOverride : Bool}

theorem PlannedRequest.ofBatch
    {graph : ToolExecutionGraph}
    {op : Op}
    (hRequest : PlannedRequest engine context graph op) :
    op.OfBatch := by
  rcases hRequest with hGraph | hFuel | hBatch
  · subst hGraph
    trivial
  · subst hFuel
    trivial
  · cases hBatch <;> trivial

/- A batch that a human has approved does not wait. -/
theorem uses_approvedBatch :
    Uses Op.OfBatch
      (fun r => ∃ batch, r = BatchExecution.executed batch)
      (executePlannedCalls engine context step calls true) := by
  have hRuns : ¬Waits engine calls true := by
    intro hWaits
    cases hWaits.1
  exact Uses.mono (fun _ h => h.ofBatch) (fun _ h => h)
    (uses_executePlannedCalls hRuns)

/- A batch issues requests of a batch only. -/
theorem uses_batch :
    Uses Op.OfBatch (fun _ => True)
      (executePlannedCalls engine context step calls
        approvalOverride) := by
  by_cases hWaits : Waits engine calls approvalOverride
  · have hYes : (!approvalOverride) = true ∧
        approvalCalls engine calls ≠ [] :=
      ⟨by simp [hWaits.1], hWaits.2⟩
    unfold executePlannedCalls
    rw [if_pos hYes]
    exact ⟨trivial, fun _ => trivial⟩
  · exact Uses.mono (fun _ h => h.ofBatch)
      (fun _ _ => trivial) (uses_executePlannedCalls hWaits)

/- What keeps under the records of a batch survives it. -/
theorem OnHost.safe_batch
    {M : Machine Op Answer World}
    {P : World → Op → Prop}
    {I : World → Prop}
    {w : World}
    (hHost : OnHost M)
    (hRequest : ∀ w op, I w → op.OfBatch → P w op)
    (hAppend : ∀ w record, I w → IsTrace record →
      I (w.append record))
    (hIssue : ∀ w uuid, I w → uuid ∉ w.issued →
      I (w.issue uuid))
    (hInit : I w) :
    Safe M P (fun _ w' => I w') (fun _ w' => I w')
      (executePlannedCalls engine context step calls
        approvalOverride) w := by
  refine Safe.mono (fun _ _ h => h) (fun _ _ h => h.2)
    (fun _ _ h => h)
    (Uses.safe uses_batch hRequest ?_ hInit)
  intro w op a hHolds hBatch hAllowed
  rw [hHost.next]
  cases op with
  | append record =>
      cases a with
      | ok _ => exact hAppend w record hHolds hBatch
      | error _ => exact hHolds
  | newUuid =>
      exact hIssue w a hHolds (hHost.allowed _ _ _ hAllowed)
  | setProjection _ => exact hBatch.elim
  | _ => exact hHolds

end Footprint

end RainEngine
