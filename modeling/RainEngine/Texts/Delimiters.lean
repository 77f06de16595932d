import Mathlib.Data.List.Infix

/-
  This file is about texts that are cut at a delimiter. The
  delimiter begins with a mark that does not come again in it.
  If it is longer than the text before it, then the text is
  cut where it was joined, whatever it consists of.

  Key definitions include:
    * `cut`

  Key theorems include:
    * `not_prefix_within`
    * `cut_append`
-/

namespace Texts

variable {α : Type}

/- What stands before a delimiter, and what stands after it. -/
def cut
    [DecidableEq α]
    (delimiter : List α) :
    List α → Option (List α × List α)
| [] => none
| item :: rest =>
    if delimiter <+: item :: rest then
      some ([], (item :: rest).drop delimiter.length)
    else
      (cut delimiter rest).map fun parts =>
        (item :: parts.1, parts.2)

variable {mark : α}
variable {name before after text : List α}

/- No delimiter begins inside of what stands before it. -/
theorem not_prefix_within
    (hMark : mark ∉ name)
    (hInhabited : before ≠ [])
    (hShort : before.length ≤ name.length) :
    ¬mark :: name <+: before ++ (mark :: name ++ after) := by
  intro hPrefix
  rcases hPrefix with ⟨rest, hSame⟩
  have hPositive := List.length_pos_iff.mpr hInhabited
  -- the delimiter would have its mark at this place
  have hAt :=
    congrArg (fun text => text[before.length]?) hSame
  have hName :
      (mark :: name ++ rest)[before.length]? =
        name[before.length - 1]? := by
    rw [List.getElem?_append_left
      (by rw [List.length_cons]; omega),
      List.getElem?_cons]
    rw [if_neg (by omega)]
  rw [hName, List.getElem?_append_right (Nat.le_refl _),
    Nat.sub_self] at hAt
  exact hMark (List.mem_of_getElem? hAt)

/- A text is cut where it was joined. -/
theorem cut_append
    [DecidableEq α]
    (hMark : mark ∉ name)
    (hShort : before.length ≤ name.length) :
    cut (mark :: name) (before ++ (mark :: name ++ after)) =
      some (before, after) := by
  induction before with
  | nil =>
      have hHere := List.prefix_append (mark :: name) after
      rw [List.nil_append, List.cons_append]
      rw [List.cons_append] at hHere
      unfold cut
      rw [if_pos hHere]
      simp
  | cons item before ih =>
      have hWithin :
          ¬mark :: name <+:
            item :: before ++ (mark :: name ++ after) :=
        not_prefix_within hMark
          (List.cons_ne_nil item before) hShort
      rw [List.length_cons] at hShort
      rw [List.cons_append] at hWithin ⊢
      unfold cut
      rw [if_neg hWithin, ih (by omega)]
      rfl

end Texts
