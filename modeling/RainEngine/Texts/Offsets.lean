import Mathlib.Data.List.Basic

/-
  This file is about offsets into a list whose items have
  widths, such as the bytes of the characters of a text: the
  offset of the first or of the last occurrence of an item,
  and the slice between two offsets. A slice is undefined if
  it ends before it starts or an end of it is inside an item.

  Key definitions include:
    * `width`
    * `find`
    * `rfind`
    * `slice`

  Key theorems include:
    * `find_eq_some`
    * `rfind_eq_some`
    * `occurrences_ordered`
    * `slice_append`
    * `slice_reversed`
-/

namespace Texts

variable {α : Type}

/- The width of a list. -/
def width (size : α → Nat) : List α → Nat
| [] => 0
| item :: rest => size item + width size rest

theorem width_append
    {size : α → Nat}
    (before after : List α) :
    width size (before ++ after) =
      width size before + width size after := by
  induction before with
  | nil => exact (Nat.zero_add _).symm
  | cons item before ih =>
      show size item + width size (before ++ after) = _
      rw [ih, ← Nat.add_assoc]
      rfl

/- The offset at which an item is first. -/
def find
    [DecidableEq α]
    (size : α → Nat)
    (target : α) :
    List α → Option Nat
| [] => none
| item :: rest =>
    if item = target then some 0
    else (find size target rest).map (size item + ·)

/- The offset at which an item is last. -/
def rfind
    [DecidableEq α]
    (size : α → Nat)
    (target : α) :
    List α → Option Nat
| [] => none
| item :: rest =>
    match rfind size target rest with
    | some offset => some (size item + offset)
    | none => if item = target then some 0 else none

/- What is left after an offset between two items. -/
def dropTo
    (size : α → Nat) :
    List α → Nat → Option (List α)
| items, 0 => some items
| [], _ + 1 => none
| item :: rest, offset + 1 =>
    if size item ≤ offset + 1 then
      dropTo size rest (offset + 1 - size item)
    else none

/- What is before an offset between two items. -/
def takeTo
    (size : α → Nat) :
    List α → Nat → Option (List α)
| _, 0 => some []
| [], _ + 1 => none
| item :: rest, offset + 1 =>
    if size item ≤ offset + 1 then
      (takeTo size rest (offset + 1 - size item)).map
        (item :: ·)
    else none

/- The items from an offset up to another one. -/
def slice
    (size : α → Nat)
    (items : List α)
    (start stop : Nat) :
    Option (List α) :=
  if start ≤ stop then
    (dropTo size items start).bind
      (takeTo size · (stop - start))
  else none

------------------------------------------------------------
-- Occurrences
------------------------------------------------------------

section Occurrences

variable [DecidableEq α]
variable {size : α → Nat}
variable {target : α}
variable {items : List α}
variable {offset : Nat}

theorem find_eq_none
    (hFind : find size target items = none) :
    target ∉ items := by
  induction items with
  | nil => exact List.not_mem_nil
  | cons item rest ih =>
      unfold find at hFind
      by_cases hItem : item = target
      · rw [if_pos hItem] at hFind
        cases hFind
      · rw [if_neg hItem, Option.map_eq_none_iff] at hFind
        intro hMem
        cases List.mem_cons.mp hMem with
        | inl hEq => exact hItem hEq.symm
        | inr hRest => exact ih hFind hRest

/- The first occurrence has none before it. -/
theorem find_eq_some
    (hFind : find size target items = some offset) :
    ∃ before after,
      items = before ++ target :: after ∧
        target ∉ before ∧ offset = width size before := by
  induction items generalizing offset with
  | nil => cases hFind
  | cons item rest ih =>
      unfold find at hFind
      by_cases hItem : item = target
      · rw [if_pos hItem] at hFind
        cases hFind
        refine ⟨[], rest, ?_, List.not_mem_nil, rfl⟩
        rw [hItem]
        rfl
      · rw [if_neg hItem] at hFind
        obtain ⟨found, hFound, hOffset⟩ :=
          Option.map_eq_some_iff.mp hFind
        obtain ⟨before, after, hItems, hNone, hWidth⟩ :=
          ih hFound
        refine ⟨item :: before, after, ?_, ?_, ?_⟩
        · rw [hItems]
          rfl
        · intro hMem
          cases List.mem_cons.mp hMem with
          | inl hEq => exact hItem hEq.symm
          | inr hBefore => exact hNone hBefore
        · rw [← hOffset, hWidth]
          rfl

theorem rfind_eq_none
    (hFind : rfind size target items = none) :
    target ∉ items := by
  induction items with
  | nil => exact List.not_mem_nil
  | cons item rest ih =>
      unfold rfind at hFind
      cases hRest : rfind size target rest with
      | some offset =>
          rw [hRest] at hFind
          cases hFind
      | none =>
          rw [hRest] at hFind
          by_cases hItem : item = target
          · simp only [if_pos hItem] at hFind
            cases hFind
          · intro hMem
            cases List.mem_cons.mp hMem with
            | inl hEq => exact hItem hEq.symm
            | inr hLater => exact ih hRest hLater

/- The last occurrence has none after it. -/
theorem rfind_eq_some
    (hFind : rfind size target items = some offset) :
    ∃ before after,
      items = before ++ target :: after ∧
        target ∉ after ∧ offset = width size before := by
  induction items generalizing offset with
  | nil => cases hFind
  | cons item rest ih =>
      unfold rfind at hFind
      cases hRest : rfind size target rest with
      | some found =>
          rw [hRest] at hFind
          cases hFind
          obtain ⟨before, after, hItems, hNone, hWidth⟩ :=
            ih hRest
          refine ⟨item :: before, after, ?_, hNone, ?_⟩
          · rw [hItems]
            rfl
          · rw [hWidth]
            rfl
      | none =>
          rw [hRest] at hFind
          by_cases hItem : item = target
          · simp only [if_pos hItem] at hFind
            cases hFind
            refine ⟨[], rest, ?_, rfind_eq_none hRest, rfl⟩
            rw [hItem]
            rfl
          · simp only [if_neg hItem] at hFind
            cases hFind

end Occurrences

section Order

variable {target : α}

/- Of two occurrences of two items one is before the other. -/
theorem occurrences_ordered
    {first second : α}
    {before after front rest : List α}
    (hApart : first ≠ second)
    (hSame :
      before ++ first :: after = front ++ second :: rest) :
    (∃ between,
        front = before ++ first :: between ∧
          after = between ++ second :: rest) ∨
      ∃ between,
        before = front ++ second :: between ∧
          rest = between ++ first :: after := by
  cases List.append_eq_append_iff.mp hSame with
  | inl hAfter =>
      left
      obtain ⟨between, hFront, hRest⟩ := hAfter
      cases between with
      | nil => exact absurd (List.cons.inj hRest).1 hApart
      | cons item between =>
          rw [List.cons_append] at hRest
          obtain ⟨hItem, hAfter⟩ := List.cons.inj hRest
          subst hItem
          exact ⟨between, hFront, hAfter⟩
  | inr hBefore =>
      right
      obtain ⟨between, hBefore, hRest⟩ := hBefore
      cases between with
      | nil => exact absurd (List.cons.inj hRest).1.symm hApart
      | cons item between =>
          rw [List.cons_append] at hRest
          obtain ⟨hItem, hAfter⟩ := List.cons.inj hRest
          subst hItem
          exact ⟨between, hBefore, hAfter⟩

/- There is one first occurrence. -/
theorem first_unique
    {before after front rest : List α}
    (hBefore : target ∉ before)
    (hFront : target ∉ front)
    (hSame :
      before ++ target :: after = front ++ target :: rest) :
    before = front ∧ after = rest := by
  cases List.append_eq_append_iff.mp hSame with
  | inl hAfter =>
      obtain ⟨between, hEq, hRest⟩ := hAfter
      cases between with
      | nil =>
          rw [List.append_nil] at hEq
          exact ⟨hEq.symm, (List.cons.inj hRest).2⟩
      | cons item between =>
          rw [List.cons_append] at hRest
          rw [hEq, ← (List.cons.inj hRest).1] at hFront
          exact absurd (by simp) hFront
  | inr hAfter =>
      obtain ⟨between, hEq, hRest⟩ := hAfter
      cases between with
      | nil =>
          rw [List.append_nil] at hEq
          exact ⟨hEq, (List.cons.inj hRest).2.symm⟩
      | cons item between =>
          rw [List.cons_append] at hRest
          rw [hEq, ← (List.cons.inj hRest).1] at hBefore
          exact absurd (by simp) hBefore

/- There is one last occurrence. -/
theorem last_unique
    {before after front rest : List α}
    (hAfter : target ∉ after)
    (hRest : target ∉ rest)
    (hSame :
      before ++ target :: after = front ++ target :: rest) :
    before = front ∧ after = rest := by
  have hReverse := congrArg List.reverse hSame
  simp only [List.reverse_append, List.reverse_cons,
    List.append_assoc, List.singleton_append] at hReverse
  obtain ⟨hEq, hFront⟩ := first_unique
    (fun hMem => hAfter (List.mem_reverse.mp hMem))
    (fun hMem => hRest (List.mem_reverse.mp hMem)) hReverse
  exact ⟨List.reverse_inj.mp hFront, List.reverse_inj.mp hEq⟩

end Order

------------------------------------------------------------
-- Slices
------------------------------------------------------------

section Slices

variable {size : α → Nat}
variable {before part after : List α}

theorem dropTo_width
    (hSize : ∀ item, 0 < size item) :
    dropTo size (before ++ after) (width size before) =
      some after := by
  induction before with
  | nil =>
      show dropTo size after 0 = some after
      unfold dropTo
      rfl
  | cons item before ih =>
      have hPos := hSize item
      show dropTo size (item :: (before ++ after))
        (size item + width size before) = some after
      obtain ⟨n, hn⟩ : ∃ n,
          size item + width size before = n + 1 :=
        ⟨size item + width size before - 1, by omega⟩
      rw [hn, dropTo, if_pos (by omega)]
      have hRest :
          n + 1 - size item = width size before := by
        omega
      rw [hRest]
      exact ih

theorem takeTo_width
    (hSize : ∀ item, 0 < size item) :
    takeTo size (before ++ after) (width size before) =
      some before := by
  induction before with
  | nil =>
      show takeTo size after 0 = some []
      unfold takeTo
      rfl
  | cons item before ih =>
      have hPos := hSize item
      show takeTo size (item :: (before ++ after))
        (size item + width size before) =
          some (item :: before)
      obtain ⟨n, hn⟩ : ∃ n,
          size item + width size before = n + 1 :=
        ⟨size item + width size before - 1, by omega⟩
      rw [hn, takeTo, if_pos (by omega)]
      have hRest :
          n + 1 - size item = width size before := by
        omega
      rw [hRest, ih]
      rfl

/- A slice between two items is the list between them. -/
theorem slice_append
    (hSize : ∀ item, 0 < size item) :
    slice size (before ++ (part ++ after))
        (width size before)
        (width size before + width size part) =
      some part := by
  unfold slice
  rw [if_pos (by omega), dropTo_width hSize,
    Nat.add_sub_cancel_left]
  exact takeTo_width hSize

theorem slice_reversed
    {items : List α}
    {start stop : Nat}
    (hReversed : stop < start) :
    slice size items start stop = none := by
  unfold slice
  rw [if_neg (by omega)]

end Slices

end Texts
