import Mathlib.Data.List.Sort
import Mathlib.Data.List.Dedup
import Mathlib.Data.String.Basic

/-
  This file is about queries over a table of rows: filters
  with bounds that may be absent, rows in the order of a key,
  groups of rows, and pages of an answer.

  Key definitions include:
    * `within`
    * `orderBy`
    * `groupBy`
    * `page`
    * `firstOf`

  Key theorems include:
    * `orderBy_of_pairwise`
    * `orderBy_map`
    * `orderBy_congr`
    * `orderBy_related`
    * `orderBy_neg`
    * `page_of_nonneg`
    * `firstOf_take_eq_iff`
-/

namespace Tables

variable {ρ σ κ : Type}

------------------------------------------------------------
-- Bounds
------------------------------------------------------------

/- Between two bounds, each of which may be absent. -/
def within
    (low high : Option Int)
    (x : Int) :
    Bool :=
  low.all (· ≤ x) && high.all (x ≤ ·)

------------------------------------------------------------
-- Order
------------------------------------------------------------

section Order

variable [LinearOrder κ]

/- The rows in the order of a key. -/
def orderBy
    (key : ρ → κ)
    (rows : List ρ) :
    List ρ :=
  rows.insertionSort fun left right => key left ≤ key right

/- Rows that are in order already stay as they are. -/
theorem orderBy_of_pairwise
    {key : ρ → κ}
    {rows : List ρ}
    (hOrder : rows.Pairwise fun left right =>
      key left ≤ key right) :
    orderBy key rows = rows :=
  hOrder.insertionSort_eq

/- Ordering by a key of the images orders the originals. -/
theorem orderBy_map
    (f : ρ → σ)
    (key : σ → κ)
    (rows : List ρ) :
    orderBy key (rows.map f) =
      (orderBy (fun row => key (f row)) rows).map f := by
  unfold orderBy
  symm
  apply List.map_insertionSort
  intro left _ right _
  exact Iff.rfl

/- Distinct values have one order. -/
theorem orderBy_congr
    {xs ys : List κ}
    (hPerm : xs.Perm ys) :
    orderBy (fun x => x) xs = orderBy (fun x => x) ys := by
  unfold orderBy
  apply List.Perm.eq_of_pairwise' (r := (· ≤ ·))
  · exact List.pairwise_insertionSort _ xs
  · exact List.pairwise_insertionSort _ ys
  · exact (List.perm_insertionSort _ xs).trans
      (hPerm.trans (List.perm_insertionSort _ ys).symm)

/- A row that comes after all others is put at the end. -/
theorem orderedInsert_of_after
    {key : ρ → κ}
    {row : ρ}
    {rows : List ρ}
    (hAfter : ∀ other ∈ rows, key other < key row) :
    rows.orderedInsert (fun left right => key left ≤ key right)
        row =
      rows ++ [row] := by
  induction rows with
  | nil => rfl
  | cons first rest ih =>
      have hFirst := hAfter first List.mem_cons_self
      rw [List.orderedInsert, if_neg (not_le.mpr hFirst),
        ih fun other hMem =>
          hAfter other (List.mem_cons_of_mem _ hMem)]
      rfl

/- A row is put in the same place in related rows. -/
theorem orderedInsert_related
    {R : ρ → σ → Prop}
    {key : ρ → κ}
    {key' : σ → κ}
    {row : ρ}
    {other : σ}
    {rows : List ρ}
    {others : List σ}
    (hKeys : ∀ row other, R row other →
      key row = key' other)
    (hRow : R row other)
    (hRows : List.Forall₂ R rows others) :
    List.Forall₂ R
      (rows.orderedInsert
        (fun left right => key left ≤ key right) row)
      (others.orderedInsert
        (fun left right => key' left ≤ key' right) other) := by
  induction hRows with
  | nil => exact .cons hRow .nil
  | @cons first second rest more hFirst hRest ih =>
      rw [List.orderedInsert, List.orderedInsert,
        hKeys row other hRow, hKeys first second hFirst]
      split
      · exact .cons hRow (.cons hFirst hRest)
      · exact .cons hFirst ih

/- Related rows with the same keys have the same order. -/
theorem orderBy_related
    {R : ρ → σ → Prop}
    {key : ρ → κ}
    {key' : σ → κ}
    {rows : List ρ}
    {others : List σ}
    (hKeys : ∀ row other, R row other →
      key row = key' other)
    (hRows : List.Forall₂ R rows others) :
    List.Forall₂ R (orderBy key rows)
      (orderBy key' others) := by
  induction hRows with
  | nil => exact .nil
  | cons hRow _ ih => exact orderedInsert_related hKeys hRow ih

end Order

/- Increasing rows in descending order are reversed. -/
theorem orderBy_neg
    {key : ρ → Int}
    {rows : List ρ}
    (hIncreasing : rows.Pairwise fun early late =>
      key early < key late) :
    orderBy (fun row => -key row) rows = rows.reverse := by
  induction hIncreasing with
  | nil => rfl
  | @cons first rest hFirst hRest ih =>
      unfold orderBy at ih ⊢
      rw [List.insertionSort_cons, ih, List.reverse_cons]
      apply orderedInsert_of_after
      intro other hMem
      have hLess := hFirst other (List.mem_reverse.mp hMem)
      omega

------------------------------------------------------------
-- Groups
------------------------------------------------------------

/- The rows of each value of a key. -/
def groupBy
    [DecidableEq κ]
    (key : ρ → κ)
    (rows : List ρ) :
    List (κ × List ρ) :=
  (rows.map key).dedup.map fun value =>
    (value, rows.filter fun row => key row = value)

------------------------------------------------------------
-- Pages
------------------------------------------------------------

/- A negative limit sets no limit. -/
def page
    (limit offset : Int)
    (rows : List ρ) :
    List ρ :=
  if limit < 0 then rows.drop offset.toNat
  else (rows.drop offset.toNat).take limit.toNat

theorem page_of_nonneg
    (limit offset : Nat)
    (rows : List ρ) :
    page limit offset rows =
      (rows.drop offset).take limit := by
  unfold page
  rw [if_neg (by omega), Int.toNat_natCast,
    Int.toNat_natCast]

------------------------------------------------------------
-- First Answers
------------------------------------------------------------

/- The first rows that a test keeps. -/
def firstOf
    (keep : ρ → Bool)
    (count : Nat)
    (rows : List ρ) :
    List ρ :=
  (rows.filter keep).take count

section FirstAnswers

variable {keep : ρ → Bool}
variable {count size : Nat}
variable {rows : List ρ}

/- What a page answers is the start of the whole answer. -/
theorem firstOf_take_prefix :
    firstOf keep count (rows.take size) <+:
      firstOf keep count rows := by
  have hSplit :
      rows.filter keep =
        (rows.take size).filter keep ++
          (rows.drop size).filter keep := by
    rw [← List.filter_append, List.take_append_drop]
  unfold firstOf
  rw [hSplit, List.take_append]
  exact List.prefix_append _ _

/-
  A page gives the whole answer exactly when it holds enough
  rows of it or the rows after it hold none.
-/
theorem firstOf_take_eq_iff :
    firstOf keep count (rows.take size) =
        firstOf keep count rows ↔
      count ≤ ((rows.take size).filter keep).length ∨
        ∀ row ∈ rows.drop size, keep row = false := by
  have hSplit :
      rows.filter keep =
        (rows.take size).filter keep ++
          (rows.drop size).filter keep := by
    rw [← List.filter_append, List.take_append_drop]
  have hLater :
      (∀ row ∈ rows.drop size, keep row = false) ↔
        (rows.drop size).filter keep = [] := by
    simp [List.filter_eq_nil_iff]
  rw [hLater]
  unfold firstOf
  rw [hSplit, List.take_append]
  constructor
  · intro hEq
    have hNil := List.self_eq_append_right.mp hEq
    by_cases hCount :
        count ≤ ((rows.take size).filter keep).length
    · exact .inl hCount
    · right
      cases hRest : (rows.drop size).filter keep with
      | nil => rfl
      | cons row rest =>
          rw [hRest] at hNil
          obtain ⟨more, hMore⟩ := Nat.exists_eq_add_of_lt
            (Nat.lt_of_not_le hCount)
          rw [hMore] at hNil
          simp [Nat.add_assoc] at hNil
  · intro hEither
    cases hEither with
    | inl hCount =>
        rw [Nat.sub_eq_zero_of_le hCount]
        simp
    | inr hNil =>
        rw [hNil]
        simp

end FirstAnswers

end Tables
