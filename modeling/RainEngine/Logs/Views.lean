import Mathlib.Data.List.Basic
import Mathlib.Data.List.Induction

/-
  This file is about logs that are read through a view: the
  entries a test keeps, in order. A reading that ignores the
  other entries gives the same answer on the view.

  Key theorems include:
    * `findSome?_view`
    * `findSomeRev?_view`
    * `filterMap_view`
    * `view_snoc_of_not`
    * `findSomeRev?_eq_some_iff`
    * `findSomeRev?_eq_getLast?`
-/

namespace Logs

variable {α β : Type}
variable {keep : α → Bool}
variable {read : α → Option β}
variable {log : List α}

/- The reading answers nothing at entries outside the view. -/
def Ignores
    (keep : α → Bool)
    (read : α → Option β) :
    Prop :=
  ∀ entry, keep entry = false → read entry = none

theorem findSome?_view
    (hIgnores : Ignores keep read) :
    (log.filter keep).findSome? read =
      log.findSome? read := by
  induction log with
  | nil => rfl
  | cons entry rest ih =>
      by_cases hKeep : keep entry = true
      · rw [List.filter_cons_of_pos hKeep]
        simp only [List.findSome?_cons, ih]
      · have hNone := hIgnores entry (by simpa using hKeep)
        rw [List.filter_cons_of_neg hKeep, ih]
        simp only [List.findSome?_cons, hNone]

/- The newest answer of a reading. -/
theorem findSomeRev?_view
    (hIgnores : Ignores keep read) :
    (log.filter keep).findSomeRev? read =
      log.findSomeRev? read := by
  rw [List.findSomeRev?_eq_findSome?_reverse,
    List.findSomeRev?_eq_findSome?_reverse,
    ← List.filter_reverse]
  exact findSome?_view hIgnores

/- All answers of a reading. -/
theorem filterMap_view
    (hIgnores : Ignores keep read) :
    (log.filter keep).filterMap read =
      log.filterMap read := by
  induction log with
  | nil => rfl
  | cons entry rest ih =>
      by_cases hKeep : keep entry = true
      · rw [List.filter_cons_of_pos hKeep]
        simp only [List.filterMap_cons, ih]
      · have hNone := hIgnores entry (by simpa using hKeep)
        rw [List.filter_cons_of_neg hKeep, ih]
        simp only [List.filterMap_cons, hNone]

theorem view_snoc_of_keep
    {entry : α}
    (hKeep : keep entry = true) :
    (log ++ [entry]).filter keep =
      log.filter keep ++ [entry] := by
  rw [List.filter_append, List.filter_cons_of_pos hKeep,
    List.filter_nil]

theorem view_snoc_of_not
    {entry : α}
    (hNot : keep entry = false) :
    (log ++ [entry]).filter keep = log.filter keep := by
  rw [List.filter_append, List.filter_cons_of_neg (by simp [hNot]),
    List.filter_nil, List.append_nil]

/- An entry of a longer log is the last one or an older one. -/
theorem snoc_eq_append_cons
    {before after : List α}
    {last entry : α}
    (hLog : log ++ [last] = before ++ entry :: after) :
    (after = [] ∧ entry = last) ∨
      ∃ init,
        after = init ++ [last] ∧
        log = before ++ entry :: init := by
  rcases List.eq_nil_or_concat after with
    hNone | ⟨init, final, hAfter⟩
  · subst hNone
    have hSame := List.append_inj_right' hLog rfl
    exact .inl ⟨rfl, (List.singleton_inj.mp hSame).symm⟩
  · rw [hAfter, List.concat_eq_append, ← List.cons_append,
      ← List.append_assoc] at hLog
    have hInit := List.append_inj_left' hLog rfl
    have hSame := List.append_inj_right' hLog rfl
    rw [List.singleton_inj.mp hSame]
    exact .inr ⟨init, by rw [hAfter]; simp, hInit⟩

/- The newest answer after one more entry. -/
theorem findSomeRev?_snoc
    {entry : α} :
    (log ++ [entry]).findSomeRev? read =
      (read entry).or (log.findSomeRev? read) := by
  rw [List.findSomeRev?_eq_findSome?_reverse,
    List.findSomeRev?_eq_findSome?_reverse,
    List.reverse_append, List.reverse_singleton,
    List.singleton_append, List.findSome?_cons]
  cases read entry <;> rfl

/- The newest answer and where it stands in the log. -/
theorem findSomeRev?_eq_some_iff
    {answer : β} :
    log.findSomeRev? read = some answer ↔
      ∃ before entry after,
        log = before ++ entry :: after ∧
        read entry = some answer ∧
        ∀ later ∈ after, read later = none := by
  rw [List.findSomeRev?_eq_findSome?_reverse,
    List.findSome?_eq_some_iff]
  constructor
  · rintro ⟨later, entry, earlier, hLog, hEntry, hNone⟩
    refine ⟨earlier.reverse, entry, later.reverse, ?_, hEntry,
      ?_⟩
    · rw [← List.reverse_reverse log, hLog]
      simp
    · intro other hMem
      exact hNone other (List.mem_reverse.mp hMem)
  · rintro ⟨before, entry, after, hLog, hEntry, hNone⟩
    refine ⟨after.reverse, entry, before.reverse, ?_, hEntry,
      ?_⟩
    · rw [hLog]
      simp
    · intro other hMem
      exact hNone other (List.mem_reverse.mp hMem)

/- The newest answer comes from the newest entry with one. -/
theorem findSomeRev?_eq_getLast? :
    log.findSomeRev? read =
      (log.filter fun entry =>
        (read entry).isSome).getLast?.bind read := by
  induction log using List.reverseRecOn with
  | nil => rfl
  | append_singleton log entry ih =>
      rw [findSomeRev?_snoc, List.filter_append, ih]
      cases hRead : read entry with
      | none => simp [hRead]
      | some answer => simp [hRead]

end Logs
