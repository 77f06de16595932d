import Mathlib.Data.List.MinMax
import Mathlib.Data.Int.Order.Basic
import RainEngine.Logs.Watching
import RainEngine.Tables.Queries

/-
  This file is about logs that are read in the order of their
  keys, while an item may arrive after another one with a
  greater key. A watcher that compares the newest key notices
  what is new if some of it is newer than all that it has
  seen. A walk that counts what it has found is exact as long
  as nothing arrives below what it has found; after that it
  misses an item, and finds another one twice.

  Key definitions include:
    * `Watcher.Oversees`
    * `ordered`
    * `InPlace`
    * `Passes`
    * `nextItems`

  Key theorems include:
    * `newestKey_grows_iff`
    * `Watcher.Oversees.look`
    * `InPlace.arrive`
    * `Passes.arrive`
    * `Passes.repeats`
-/

namespace Logs

open Tables (orderBy)

variable {α ν : Type}
variable [LinearOrder ν]

------------------------------------------------------------
-- The Newest Key
------------------------------------------------------------

section Newest

variable {key : α → ν}
variable {items : List α}

theorem orderBy_perm
    (key : α → ν)
    (items : List α) :
    (orderBy key items).Perm items :=
  List.perm_insertionSort _ items

theorem orderBy_pairwise
    (key : α → ν)
    (items : List α) :
    (orderBy key items).Pairwise fun early late =>
      key early ≤ key late := by
  let _ : Std.Total fun left right : α =>
      key left ≤ key right :=
    ⟨fun left right => le_total (key left) (key right)⟩
  let _ : IsTrans α fun left right : α =>
      key left ≤ key right :=
    ⟨fun _ _ _ => le_trans⟩
  exact List.pairwise_insertionSort _ items

/- The last item of a log in order has the greatest key. -/
theorem newestKey_orderBy
    {greatest : ν} :
    newestKey key (orderBy key items) = some greatest ↔
      greatest ∈ items.map key ∧
        ∀ item ∈ items, key item ≤ greatest := by
  have hSorted := orderBy_pairwise key items
  have hPerm := orderBy_perm key items
  rw [← (hPerm.map key).mem_iff]
  simp only [← hPerm.mem_iff]
  generalize orderBy key items = log at hSorted
  unfold newestKey
  rcases List.eq_nil_or_concat log with hNil | hSnoc
  · rw [hNil]
    simp
  · rcases hSnoc with ⟨earlier, last, rfl⟩
    rw [List.concat_eq_append] at hSorted ⊢
    rw [List.getLast?_concat, Option.map_some,
      Option.some.injEq]
    have hBelow : ∀ item ∈ earlier ++ [last],
        key item ≤ key last := by
      intro item hMem
      rcases List.mem_append.mp hMem with hOld | hLast
      · exact (List.pairwise_append.mp hSorted).2.2 item hOld
          last (List.mem_singleton_self _)
      · rw [List.mem_singleton.mp hLast]
    constructor
    · intro hGreatest
      rw [← hGreatest]
      exact ⟨List.mem_map_of_mem (by simp), hBelow⟩
    · intro hGreatest
      rcases List.mem_map.mp hGreatest.1 with
        ⟨item, hMem, hKey⟩
      apply le_antisymm (hGreatest.2 last (by simp))
      rw [← hKey]
      exact hBelow item hMem

/-
  The newest key becomes another one exactly if some later
  item is newer than everything before.
-/
theorem newestKey_grows_iff
    (key : α → ν)
    (part later : List α) :
    newestKey key (orderBy key (part ++ later)) ≠
        newestKey key (orderBy key part) ↔
      ∃ item ∈ later,
        ∀ newest ∈ newestKey key (orderBy key part),
          newest < key item := by
  constructor
  · intro hApart
    by_contra hNone
    push Not at hNone
    apply hApart
    cases hPart : newestKey key (orderBy key part) with
    | none =>
        have hLater : later = [] := by
          apply List.eq_nil_iff_forall_not_mem.mpr
          intro item hMem
          rcases hNone item hMem with ⟨newest, hNewest, _⟩
          rw [hPart] at hNewest
          cases hNewest
        rw [hLater, List.append_nil, hPart]
    | some newest =>
        rcases newestKey_orderBy.mp hPart with ⟨hMem, hBelow⟩
        rw [newestKey_orderBy, List.map_append]
        refine ⟨List.mem_append_left _ hMem, ?_⟩
        intro item hItem
        rcases List.mem_append.mp hItem with hOld | hNew
        · exact hBelow item hOld
        · rcases hNone item hNew with ⟨other, hOther, hLe⟩
          rw [hPart] at hOther
          cases hOther
          exact hLe
  · intro hNewer hSame
    rcases hNewer with ⟨item, hMem, hNewer⟩
    have hItem : item ∈ part ++ later :=
      List.mem_append_right _ hMem
    cases hAll : newestKey key
        (orderBy key (part ++ later)) with
    | none =>
        rw [newestKey_eq_none_iff] at hAll
        have hOrdered :=
          (orderBy_perm key (part ++ later)).mem_iff.mpr hItem
        rw [hAll] at hOrdered
        cases hOrdered
    | some newest =>
        have hLe := (newestKey_orderBy.mp hAll).2 item hItem
        have hLess := hNewer newest (hSame.symm.trans hAll)
        exact absurd hLe (not_le.mpr hLess)

end Newest

------------------------------------------------------------
-- Watching In Order
------------------------------------------------------------

/- The first items that arrived have been shown, in order. -/
structure Watcher.Oversees
    (key : α → ν)
    (w : Watcher α ν)
    (arrived : List α)
    (count : Nat) : Prop where
  within : count ≤ arrived.length
  shown :
    w.shown.getLast?.getD [] =
      orderBy key (arrived.take count)
  seen :
    w.seen =
      newestKey key (orderBy key (arrived.take count))

section Overseeing

variable {key : α → ν}
variable {w : Watcher α ν}
variable {arrived arrived' : List α}
variable {count : Nat}

theorem oversees_nothing :
    Watcher.Oversees key {} arrived 0 where
  within := Nat.zero_le _
  shown := rfl
  seen := rfl

/- As many items have been shown as the count tells. -/
theorem Watcher.Oversees.shown_length
    (hOversees : w.Oversees key arrived count) :
    (w.shown.getLast?.getD []).length = count := by
  rw [hOversees.shown, (orderBy_perm key _).length_eq,
    List.length_take, Nat.min_eq_left hOversees.within]

theorem Watcher.Oversees.extend
    (hOversees : w.Oversees key arrived count)
    (hGrows : arrived <+: arrived') :
    w.Oversees key arrived' count := by
  rcases hGrows with ⟨later, rfl⟩
  have hTake :
      (arrived ++ later).take count = arrived.take count :=
    List.take_append_of_le_length hOversees.within
  refine ⟨?_, ?_, ?_⟩
  · rw [List.length_append]
    exact Nat.le_add_right_of_le hOversees.within
  · rw [hTake]
    exact hOversees.shown
  · rw [hTake]
    exact hOversees.seen

/-
  After a look the log has been shown as it is exactly if
  nothing has arrived since, or something that is newer than
  all that was seen.
-/
theorem Watcher.Oversees.look
    (hOversees : w.Oversees key arrived count) :
    (∃ next,
      (w.look key (orderBy key arrived)).Oversees key arrived
        next) ∧
    ((w.look key (orderBy key arrived)).shown.getLast?.getD
        [] = orderBy key arrived ↔
      arrived.drop count = [] ∨
        ∃ item ∈ arrived.drop count,
          ∀ newest ∈ w.seen, newest < key item) := by
  have hSplit := List.take_append_drop count arrived
  have hGrows := newestKey_grows_iff key
    (arrived.take count) (arrived.drop count)
  rw [hSplit, ← hOversees.seen] at hGrows
  unfold Watcher.look
  by_cases hSeen :
      newestKey key (orderBy key arrived) = w.seen
  · rw [if_pos hSeen]
    refine ⟨⟨count, hOversees⟩, ?_⟩
    rw [hOversees.shown]
    constructor
    · intro hSame
      left
      have hLength := congrArg List.length hSame
      rw [(orderBy_perm key _).length_eq,
        (orderBy_perm key _).length_eq,
        List.length_take] at hLength
      exact List.drop_eq_nil_of_le (by omega)
    · intro hEither
      rcases hEither with hNone | hNewer
      · rw [hNone, List.append_nil] at hSplit
        rw [hSplit]
      · exact absurd hSeen (hGrows.mpr hNewer)
  · rw [if_neg hSeen]
    dsimp only
    have hShown :
        (w.shown ++ [orderBy key arrived]).getLast?.getD [] =
          orderBy key arrived := by
      rw [List.getLast?_concat, Option.getD_some]
    refine ⟨⟨arrived.length, Nat.le_refl _, ?_, ?_⟩, ?_⟩
    · rw [List.take_length]
      exact hShown
    · rw [List.take_length]
    · exact iff_of_true hShown (.inr (hGrows.mp hSeen))

end Overseeing

------------------------------------------------------------
-- Walking In Order
------------------------------------------------------------

/- What arrived, in order. -/
def ordered (arrived : List ν) : List ν :=
  orderBy (fun item => item) arrived

/- What has been found is the beginning of the log. -/
structure InPlace
    (found arrived : List ν) : Prop where
  begins : found <+: ordered arrived

/- An item has been passed by that was not found. -/
structure Passes
    (found arrived : List ν) : Prop where
  passed :
    ∃ item ∈ (ordered arrived).take found.length,
      item ∉ found

section Walking

variable {found arrived : List ν}
variable {item : ν}
variable {count : Nat}

/- The keys of items in order are the keys in order. -/
theorem ordered_map
    (key : α → ν)
    (items : List α) :
    ordered (items.map key) = (orderBy key items).map key :=
  Tables.orderBy_map key (fun item => item) items

theorem ordered_perm (arrived : List ν) :
    (ordered arrived).Perm arrived :=
  orderBy_perm _ arrived

theorem ordered_pairwise
    (hNodup : arrived.Nodup) :
    (ordered arrived).Pairwise (· < ·) := by
  have hApart := (ordered_perm arrived).nodup_iff.mpr hNodup
  refine (hApart.and (orderBy_pairwise _ arrived)).imp ?_
  intro early late hBoth
  exact lt_of_le_of_ne hBoth.2 hBoth.1

/- An item is put between the lesser and the greater ones. -/
theorem ordered_arrive
    (hNodup : arrived.Nodup)
    (hNew : item ∉ arrived) :
    ∃ before after,
      ordered arrived = before ++ after ∧
        ordered (arrived ++ [item]) =
          before ++ item :: after ∧
        (∀ other ∈ before, other < item) ∧
          ∀ other ∈ after, item < other := by
  have hNext : (arrived ++ [item]).Nodup := by
    rw [List.nodup_append]
    refine ⟨hNodup, List.nodup_singleton _, ?_⟩
    intro other hOther last hLast hSame
    rw [List.mem_singleton.mp hLast] at hSame
    exact hNew (hSame ▸ hOther)
  have hSorted := ordered_pairwise hNext
  have hPerm := ordered_perm (arrived ++ [item])
  have hMem : item ∈ ordered (arrived ++ [item]) :=
    hPerm.mem_iff.mpr (by simp)
  rcases List.append_of_mem hMem with ⟨before, after, hSplit⟩
  rw [hSplit] at hSorted hPerm
  rcases List.pairwise_append.mp hSorted with
    ⟨hBefore, hAfter, hAcross⟩
  rcases List.pairwise_cons.mp hAfter with ⟨hAbove, hRest⟩
  refine ⟨before, after, ?_, hSplit, ?_, hAbove⟩
  · have hParts : (before ++ after).Perm arrived := by
      have hFront := List.perm_middle.symm.trans hPerm
      exact (hFront.trans
        (List.perm_append_singleton item arrived)).cons_inv
    apply ((ordered_perm arrived).trans
      hParts.symm).eq_of_pairwise' (ordered_pairwise hNodup)
    refine List.pairwise_append.mpr ⟨hBefore, hRest, ?_⟩
    intro early hEarly late hLate
    exact hAcross early hEarly late
      (List.mem_cons_of_mem _ hLate)
  · intro other hOther
    exact hAcross other hOther item List.mem_cons_self

theorem inPlace_nothing : InPlace [] arrived :=
  ⟨List.nil_prefix⟩

/- An item above what was found leaves the walk as it is. -/
theorem InPlace.arrive
    (hInPlace : InPlace found arrived)
    (hNodup : arrived.Nodup)
    (hNew : item ∉ arrived)
    (hAbove : ∀ old ∈ found, old < item) :
    InPlace found (arrived ++ [item]) := by
  rcases ordered_arrive hNodup hNew with
    ⟨before, after, hOld, hNext, hBefore, hAfter⟩
  have hBegins := hInPlace.begins
  rw [hOld] at hBegins
  constructor
  rw [hNext]
  refine List.IsPrefix.trans ?_
    (List.prefix_append before (item :: after))
  by_cases hShort : found.length ≤ before.length
  · exact List.prefix_of_prefix_length_le hBegins
      (List.prefix_append _ _) hShort
  · -- an item after the new one would have been found
    exfalso
    have hLong : before.length < found.length := by omega
    rcases List.prefix_of_prefix_length_le
      (List.prefix_append before after) hBegins
        (Nat.le_of_lt hLong) with ⟨rest, hFound⟩
    cases rest with
    | nil =>
        rw [List.append_nil] at hFound
        rw [hFound] at hLong
        exact Nat.lt_irrefl _ hLong
    | cons first rest =>
        rw [← hFound, List.prefix_append_right_inj] at hBegins
        have hFirst : first ∈ after :=
          hBegins.subset List.mem_cons_self
        have hLess : first < item := by
          apply hAbove
          rw [← hFound]
          simp
        exact lt_asymm hLess (hAfter first hFirst)

omit [LinearOrder ν] in
/- A walk is past an item that comes before its end. -/
theorem mem_take_of_lt
    {before after : List ν}
    (hLong : before.length < count) :
    item ∈ (before ++ item :: after).take count := by
  rcases Nat.exists_eq_add_of_lt hLong with ⟨more, hMore⟩
  rw [hMore, Nat.add_assoc, List.take_length_add_append,
    List.take_succ_cons]
  simp

/- An item below what was found has been passed by. -/
theorem InPlace.late
    (hInPlace : InPlace found arrived)
    (hNodup : arrived.Nodup)
    (hNew : item ∉ arrived)
    (hLate : ¬∀ old ∈ found, old < item) :
    Passes found (arrived ++ [item]) := by
  rcases ordered_arrive hNodup hNew with
    ⟨before, after, hOld, hNext, hBefore, hAfter⟩
  have hBegins := hInPlace.begins
  rw [hOld] at hBegins
  have hFresh : item ∉ found := by
    intro hFound
    apply hNew
    rw [← (ordered_perm arrived).mem_iff, hOld]
    exact hBegins.subset hFound
  refine ⟨item, ?_, hFresh⟩
  rw [hNext]
  apply mem_take_of_lt
  by_contra hShort
  apply hLate
  intro old hMem
  have hPart : found <+: before :=
    List.prefix_of_prefix_length_le hBegins
      (List.prefix_append _ _) (Nat.le_of_not_lt hShort)
  exact hBefore old (hPart.subset hMem)

/- Whatever arrives, an item remains that was passed by. -/
theorem Passes.arrive
    (hPasses : Passes found arrived)
    (hNodup : arrived.Nodup)
    (hNew : item ∉ arrived)
    (hFound : found ⊆ arrived) :
    Passes found (arrived ++ [item]) := by
  rcases ordered_arrive hNodup hNew with
    ⟨before, after, hOld, hNext, _, _⟩
  rcases hPasses.passed with ⟨other, hMem, hMissed⟩
  rw [hOld] at hMem
  constructor
  rw [hNext]
  by_cases hShort : found.length ≤ before.length
  · refine ⟨other, ?_, hMissed⟩
    rw [List.take_append_of_le_length hShort] at hMem ⊢
    exact hMem
  · refine ⟨item, mem_take_of_lt (by omega), ?_⟩
    intro hItem
    exact hNew (hFound hItem)

/- The next items of the log, counted from what was found. -/
def nextItems
    (found arrived : List ν)
    (count : Nat) :
    List ν :=
  ((ordered arrived).drop found.length).take count

theorem InPlace.fetch
    (hInPlace : InPlace found arrived) :
    InPlace (found ++ nextItems found arrived count)
      arrived := by
  constructor
  rcases hInPlace.begins with ⟨rest, hSplit⟩
  unfold nextItems
  rw [← hSplit, List.drop_left,
    List.prefix_append_right_inj]
  exact List.take_prefix _ _

theorem Passes.fetch
    (hPasses : Passes found arrived)
    (hNodup : arrived.Nodup) :
    Passes (found ++ nextItems found arrived count)
      arrived := by
  rcases hPasses.passed with ⟨item, hMem, hMissed⟩
  have hApart := (ordered_perm arrived).nodup_iff.mpr hNodup
  refine ⟨item, ?_, ?_⟩
  · apply (List.take_prefix_take_left ?_).subset hMem
    rw [List.length_append]
    exact Nat.le_add_right _ _
  · intro hFound
    rcases List.mem_append.mp hFound with hOld | hNext
    · exact hMissed hOld
    · exact List.disjoint_take_drop hApart (Nat.le_refl _)
        hMem (List.mem_of_mem_take hNext)

theorem nextItems_subset :
    nextItems found arrived count ⊆ arrived := by
  intro item hMem
  rw [← (ordered_perm arrived).mem_iff]
  exact List.mem_of_mem_drop (List.mem_of_mem_take hMem)

/- A walk that has come to the end has found everything. -/
theorem InPlace.complete
    (hInPlace : InPlace found arrived)
    (hEnd : arrived.length ≤ found.length) :
    found = ordered arrived := by
  apply hInPlace.begins.eq_of_length_le
  rw [(ordered_perm arrived).length_eq]
  exact hEnd

/- A walk to the end that missed an item found one twice. -/
theorem Passes.repeats
    (hPasses : Passes found arrived)
    (hFound : found ⊆ arrived)
    (hEnd : arrived.length ≤ found.length) :
    (∃ item ∈ arrived, item ∉ found) ∧ ¬found.Nodup := by
  rcases hPasses.passed with ⟨item, hMem, hMissed⟩
  have hItem : item ∈ arrived :=
    (ordered_perm arrived).mem_iff.mp
      (List.mem_of_mem_take hMem)
  refine ⟨⟨item, hItem, hMissed⟩, ?_⟩
  intro hNodup
  have hAll : found.Perm arrived :=
    (hNodup.subperm hFound).perm_of_length_le hEnd
  exact hMissed (hAll.mem_iff.mpr hItem)

end Walking

end Logs
