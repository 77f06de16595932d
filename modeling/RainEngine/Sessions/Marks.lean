import RainEngine.Kernel.Ledger
import RainEngine.Logs.Views

/-
  This file defines the marks of a ledger, its triggers and
  outcomes in order. The active trigger and the outcome of a
  key can be read off the marks alone.

  Key definitions include:
    * `isMark`
    * `marks`

  Key theorems include:
    * `activeTrigger_marks`
-/

namespace RainEngine

------------------------------------------------------------
-- Marks
------------------------------------------------------------

def SessionRecord.isMark : SessionRecord → Bool
| .trigger _ => true
| .outcome _ => true
| _ => false

/- The triggers and outcomes of a ledger. -/
def marks (records : List SessionRecord) : List SessionRecord :=
  records.filter SessionRecord.isMark

section Marks

variable {records more : List SessionRecord}
variable {record : SessionRecord}

@[simp] theorem marks_nil : marks [] = [] :=
  rfl

@[simp] theorem marks_append :
    marks (records ++ more) = marks records ++ marks more :=
  List.filter_append _ _

theorem marks_snoc_of_isMark
    (hMark : record.isMark = true) :
    marks (records ++ [record]) = marks records ++ [record] :=
  Logs.view_snoc_of_keep hMark

theorem marks_snoc_of_not_isMark
    (hOther : record.isMark = false) :
    marks (records ++ [record]) = marks records :=
  Logs.view_snoc_of_not hOther

theorem mem_marks_trigger
    {trigger : TriggerRecord} :
    .trigger trigger ∈ marks records ↔
      .trigger trigger ∈ records := by
  simp [marks, SessionRecord.isMark]

theorem mem_marks_outcome
    {outcome : OutcomeRecord} :
    .outcome outcome ∈ marks records ↔
      .outcome outcome ∈ records := by
  simp [marks, SessionRecord.isMark]

/- The marks since the last outcome. -/
theorem sinceLastOutcome_marks :
    sinceLastOutcome (marks records) =
      marks (sinceLastOutcome records) := by
  induction records using List.reverseRecOn with
  | nil => rfl
  | append_singleton records record ih =>
      rw [sinceLastOutcome_append]
      by_cases hMark : record.isMark = true
      · rw [marks_snoc_of_isMark hMark,
          sinceLastOutcome_append, ih]
        split
        · rfl
        · rw [marks_snoc_of_isMark hMark]
      · rw [Bool.not_eq_true] at hMark
        have hOther : record.isOutcome = false := by
          cases record <;> first | rfl | cases hMark
        rw [marks_snoc_of_not_isMark hMark, ih, hOther]
        simp only [Bool.false_eq_true, if_false]
        rw [marks_snoc_of_not_isMark hMark]

theorem activeTrigger_marks :
    activeTrigger (marks records) = activeTrigger records := by
  unfold activeTrigger
  rw [sinceLastOutcome_marks]
  apply Logs.findSome?_view
  intro record hOther
  cases record <;> first | rfl | cases hOther

/- The active trigger has been recorded since an outcome. -/
theorem activeTrigger_mem
    {trigger : TriggerRecord}
    (hActive : activeTrigger records = some trigger) :
    .trigger trigger ∈ sinceLastOutcome records := by
  unfold activeTrigger at hActive
  rcases List.exists_of_findSome?_eq_some hActive with
    ⟨record, hMem, hAs⟩
  cases record with
  | trigger found =>
      cases hAs
      exact hMem
  | _ => cases hAs

end Marks

end RainEngine
