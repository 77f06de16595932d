import Mathlib.Data.List.Count
import Mathlib.Data.List.Infix
import Mathlib.Data.List.Nodup
import Mathlib.Data.List.Perm.Subperm
import Mathlib.Data.List.Sort
import Mathlib.Order.Lattice

/-
  This file is about a reader of a log that acknowledges with
  a cursor. A server keeps the log until the reader asks for
  what comes after its cursor, or until what is old expires.
  The reader forgets its cursor and what it has fetched when
  it is restarted.

  Key definitions include:
    * `Relay`
    * `fromCursor`
    * `Relay.Delivered`
    * `Relay.Delivers`

  Key theorems include:
    * `Relay.Delivers.fetch`
    * `Relay.Delivers.expire`
    * `Relay.Delivers.restart`
    * `Relay.Delivers.count_le`
    * `Relay.Delivers.handled_sublist`
    * `Relay.Delivers.handled_prefix`
-/

namespace Logs

variable {α ν : Type}

/-
  What a server keeps of a log and what has expired there,
  what a reader has fetched of it and not handled yet, and
  what it has handled.
-/
structure Relay (α ν : Type) where
  published : List α := []
  kept : List α := []
  expired : List α := []
  batch : List α := []
  cursor : Option ν := none
  handled : List α := []
  restarts : Nat := 0

section Operations

variable [LinearOrder ν]

/- The items after a cursor. -/
def fromCursor
    (key : α → ν)
    (cursor : Option ν)
    (items : List α) :
    List α :=
  items.filter fun item =>
    cursor.all fun last => decide (last < key item)

namespace Relay

def publish (r : Relay α ν) (item : α) : Relay α ν :=
  { r with
    published := r.published ++ [item]
    kept := r.kept ++ [item] }

/- The server forgets the items it has kept longest. -/
def expire (r : Relay α ν) (count : Nat) : Relay α ν :=
  { r with
    kept := r.kept.drop count
    expired := r.expired ++ r.kept.take count }

/-
  The server learns the cursor, forgets what it covers, and
  hands over a part of the rest.
-/
def fetch
    (key : α → ν)
    (r : Relay α ν)
    (part : List α) :
    Relay α ν :=
  { r with
    kept := fromCursor key r.cursor r.kept
    batch := part }

/- Handle the first item of those that were fetched. -/
def handle
    (key : α → ν)
    (r : Relay α ν) :
    List α → Relay α ν
| [] => r
| item :: rest =>
    { r with
      batch := rest
      cursor := some (key item)
      handled := r.handled ++ [item] }

def restart (r : Relay α ν) : Relay α ν :=
  { r with
    batch := []
    cursor := none
    restarts := r.restarts + 1 }

end Relay

end Operations

section Delivery

variable [LinearOrder ν]
variable {key : α → ν}
variable {r : Relay α ν}
variable {item : α}
variable {part before after log : List α}
variable {past current : List α}

/-
  What was handled in earlier lives of the reader, and what in
  the present one. The latter and what has been fetched are in
  order, and an item of the log that is no newer than these
  has been handled or fetched, or it has expired.
-/
structure Relay.Delivered
    (key : α → ν)
    (r : Relay α ν)
    (past current : List α) : Prop where
  handled_eq : r.handled = past ++ current
  cursor_eq : r.cursor = current.getLast?.map key
  ordered : (current ++ r.batch).Pairwise (key · < key ·)
  genuine : current ++ r.batch ⊆ r.published
  covered : ∀ last ∈ (current ++ r.batch).getLast?,
    ∀ item ∈ r.published, key item ≤ key last →
      item ∈ r.handled ∨ item ∈ r.batch ∨ item ∈ r.expired
  known : past ⊆ r.published
  repeats : ∀ k, (past.map key).count k ≤ r.restarts
  first : r.restarts = 0 → past = []

/- What a relay keeps, whatever it does. -/
structure Relay.Delivers
    (key : α → ν)
    (r : Relay α ν) : Prop where
  increasing : r.published.Pairwise (key · < key ·)
  kept : r.kept.Sublist r.published
  accounted : ∀ item ∈ r.published,
    item ∈ r.kept ∨ item ∈ r.handled ∨ item ∈ r.expired
  split : ∃ past current, r.Delivered key past current

theorem delivers_start :
    ({} : Relay α ν).Delivers key where
  increasing := .nil
  kept := List.Sublist.refl _
  accounted := fun _ hMem => nomatch hMem
  split := ⟨[], [],
    { handled_eq := rfl
      cursor_eq := rfl
      ordered := .nil
      genuine := List.Subset.refl _
      covered := fun _ hLast => nomatch hLast
      known := List.Subset.refl _
      repeats := fun _ => Nat.le_refl 0
      first := fun _ => rfl }⟩

theorem Relay.Delivers.publish
    (hDelivers : r.Delivers key)
    (hNewest : ∀ earlier ∈ r.published,
      key earlier < key item) :
    (r.publish item).Delivers key := by
  rcases hDelivers with
    ⟨hIncreasing, hKept, hAccounted, past, current, hSplit⟩
  refine
    { increasing := ?_
      kept := hKept.append (List.Sublist.refl _)
      accounted := ?_
      split := ⟨past, current,
        { hSplit with
          genuine := List.Subset.trans hSplit.genuine
            (List.subset_append_left _ _)
          covered := ?_
          known := List.Subset.trans hSplit.known
            (List.subset_append_left _ _) }⟩ }
  · change (r.published ++ [item]).Pairwise _
    rw [List.pairwise_append]
    refine ⟨hIncreasing, List.pairwise_singleton _ _, ?_⟩
    intro earlier hEarlier late hLate
    rw [List.mem_singleton.mp hLate]
    exact hNewest earlier hEarlier
  · intro other hOther
    rcases List.mem_append.mp hOther with hOld | hNew
    · rcases hAccounted other hOld with hHere | hElse
      · exact .inl (List.mem_append_left _ hHere)
      · exact .inr hElse
    · exact .inl (List.mem_append_right _ hNew)
  · intro last hLast other hOther hNoNewer
    rcases List.mem_append.mp hOther with hOld | hNew
    · exact hSplit.covered last hLast other hOld hNoNewer
    · -- the new item is newer than all that was fetched
      rw [List.mem_singleton.mp hNew] at hNoNewer
      have hEarlier := hNewest last
        (hSplit.genuine (List.mem_of_getLast? hLast))
      exact absurd hNoNewer (not_le_of_gt hEarlier)

theorem Relay.Delivers.expire
    (hDelivers : r.Delivers key)
    (count : Nat) :
    (r.expire count).Delivers key := by
  rcases hDelivers with
    ⟨hIncreasing, hKept, hAccounted, past, current, hSplit⟩
  refine
    { increasing := hIncreasing
      kept := (List.drop_sublist _ _).trans hKept
      accounted := ?_
      split := ⟨past, current,
        { hSplit with
          covered := ?_ }⟩ }
  · intro item hItem
    rcases hAccounted item hItem with hHere | hElse | hOld
    · rw [← List.take_append_drop count r.kept] at hHere
      rcases List.mem_append.mp hHere with hTaken | hLeft
      · exact .inr (.inr (List.mem_append_right _ hTaken))
      · exact .inl hLeft
    · exact .inr (.inl hElse)
    · exact .inr (.inr (List.mem_append_left _ hOld))
  · intro last hLast item hItem hNoNewer
    rcases hSplit.covered last hLast item hItem hNoNewer with
      hHandled | hFetched | hOld
    · exact .inl hHandled
    · exact .inr (.inl hFetched)
    · exact .inr (.inr (List.mem_append_left _ hOld))

/- In a list in order, what is no newer comes before. -/
theorem mem_of_isPrefix
    (hIncreasing : log.Pairwise (key · < key ·))
    (hPart : part <+: log)
    {last : α}
    (hLast : last ∈ part.getLast?)
    (hItem : item ∈ log)
    (hNoNewer : key item ≤ key last) :
    item ∈ part := by
  rcases hPart with ⟨rest, hLog⟩
  rw [← hLog] at hIncreasing hItem
  rcases List.mem_append.mp hItem with hHere | hLater
  · exact hHere
  · have hNewer := (List.pairwise_append.mp hIncreasing).2.2
      last (List.mem_of_getLast? hLast) item hLater
    exact absurd hNoNewer (not_le_of_gt hNewer)

/- The last item of a list in order is the newest. -/
theorem le_getLast?
    (hIncreasing : log.Pairwise (key · < key ·))
    {last : α}
    (hLast : last ∈ log.getLast?)
    (hItem : item ∈ log) :
    key item ≤ key last := by
  rcases List.eq_nil_or_concat log with
    hNil | ⟨early, other, hSnoc⟩
  · rw [hNil] at hItem
    cases hItem
  · rw [List.concat_eq_append] at hSnoc
    rw [hSnoc, List.getLast?_concat] at hLast
    cases hLast
    rw [hSnoc] at hItem hIncreasing
    rcases List.mem_append.mp hItem with hEarly | hSame
    · exact le_of_lt
        ((List.pairwise_append.mp hIncreasing).2.2 item
          hEarly last (List.mem_singleton_self _))
    · rw [List.mem_singleton.mp hSame]

theorem Relay.Delivers.fetch
    (hDelivers : r.Delivers key)
    (hIdle : r.batch = [])
    (hPart : part <+: fromCursor key r.cursor r.kept) :
    (r.fetch key part).Delivers key := by
  rcases hDelivers with
    ⟨hIncreasing, hKept, hAccounted, past, current, hSplit⟩
  have hRest :
      (fromCursor key r.cursor r.kept).Sublist r.kept :=
    List.filter_sublist
  have hWhole := hRest.trans hKept
  have hOrdered := hSplit.ordered
  have hGenuine := hSplit.genuine
  have hCovered := hSplit.covered
  rw [hIdle, List.append_nil] at hOrdered hGenuine hCovered
  -- what the cursor covers has been handled, or has expired
  have hBehind : ∀ item ∈ r.published,
      ∀ last ∈ r.cursor, key item ≤ last →
        item ∈ r.handled ∨ item ∈ r.expired := by
    intro item hItem last hCursor hNoNewer
    rw [hSplit.cursor_eq] at hCursor
    rcases Option.map_eq_some_iff.mp hCursor with
      ⟨newest, hNewest, rfl⟩
    rcases hCovered newest hNewest item hItem hNoNewer with
      hHandled | hFetched | hExpired
    · exact .inl hHandled
    · cases hFetched
    · exact .inr hExpired
  have hAccounted' : ∀ item ∈ r.published,
      item ∈ fromCursor key r.cursor r.kept ∨
        item ∈ r.handled ∨ item ∈ r.expired := by
    intro item hItem
    rcases hAccounted item hItem with hHere | hElse
    · cases hCursor : r.cursor with
      | none => exact .inl (List.mem_filter.mpr ⟨hHere, rfl⟩)
      | some last =>
          by_cases hAfter : last < key item
          · exact .inl
              (List.mem_filter.mpr ⟨hHere, by simpa using hAfter⟩)
          · exact .inr (hBehind item hItem last hCursor
              (not_lt.mp hAfter))
    · exact .inr hElse
  refine
    { increasing := hIncreasing
      kept := hWhole
      accounted := hAccounted'
      split := ⟨past, current,
        { hSplit with
          ordered := ?_
          genuine := List.append_subset.mpr
            ⟨hGenuine, fun item hItem =>
              hWhole.subset (hPart.subset hItem)⟩
          covered := ?_ }⟩ }
  · change (current ++ part).Pairwise _
    rw [List.pairwise_append]
    refine ⟨hOrdered,
      hIncreasing.sublist (hPart.sublist.trans hWhole), ?_⟩
    intro early hEarly late hLate
    have hAfter :=
      (List.mem_filter.mp (hPart.subset hLate)).2
    cases hNewest : current.getLast? with
    | none =>
        rw [List.getLast?_eq_none_iff] at hNewest
        rw [hNewest] at hEarly
        cases hEarly
    | some newest =>
        rw [hSplit.cursor_eq, hNewest] at hAfter
        have hLess : key newest < key late := by
          simpa using hAfter
        exact lt_of_le_of_lt
          (le_getLast? hOrdered hNewest hEarly) hLess
  · intro last hLast item hItem hNoNewer
    change item ∈ r.handled ∨ item ∈ part ∨ item ∈ r.expired
    rcases hAccounted' item hItem with
      hHere | hHandled | hExpired
    · cases hPartLast : part.getLast? with
      | none =>
          rw [List.getLast?_eq_none_iff] at hPartLast
          change last ∈ (current ++ part).getLast? at hLast
          rw [hPartLast, List.append_nil] at hLast
          have hCursor : key last ∈ r.cursor := by
            rw [hSplit.cursor_eq, Option.mem_def.mp hLast]
            rfl
          rcases hBehind item hItem (key last) hCursor
              hNoNewer with hHandled | hExpired
          · exact .inl hHandled
          · exact .inr (.inr hExpired)
      | some newest =>
          change last ∈ (current ++ part).getLast? at hLast
          rw [List.getLast?_append, hPartLast] at hLast
          cases hLast
          exact .inr (.inl (mem_of_isPrefix
            (hIncreasing.sublist hWhole) hPart hPartLast hHere
            hNoNewer))
    · exact .inl hHandled
    · exact .inr (.inr hExpired)

theorem Relay.Delivers.handle
    (hDelivers : r.Delivers key) :
    (r.handle key r.batch).Delivers key := by
  rcases hDelivers with
    ⟨hIncreasing, hKept, hAccounted, past, current, hSplit⟩
  cases hBatch : r.batch with
  | nil =>
      exact ⟨hIncreasing, hKept, hAccounted, past, current,
        hSplit⟩
  | cons item rest =>
      have hSame :
          current ++ r.batch = (current ++ [item]) ++ rest := by
        rw [hBatch, List.append_assoc]
        rfl
      refine
        { increasing := hIncreasing
          kept := hKept
          accounted := ?_
          split := ⟨past, current ++ [item],
            { hSplit with
              handled_eq := ?_
              cursor_eq := ?_
              ordered := ?_
              genuine := ?_
              covered := ?_ }⟩ }
      · intro other hOther
        rcases hAccounted other hOther with
          hHere | hHandled | hExpired
        · exact .inl hHere
        · exact .inr (.inl (List.mem_append_left _ hHandled))
        · exact .inr (.inr hExpired)
      · change r.handled ++ [item] = _
        rw [hSplit.handled_eq, List.append_assoc]
      · change some (key item) = _
        rw [List.getLast?_concat, Option.map_some]
      · change ((current ++ [item]) ++ rest).Pairwise _
        rw [← hSame]
        exact hSplit.ordered
      · change (current ++ [item]) ++ rest ⊆ r.published
        rw [← hSame]
        exact hSplit.genuine
      · intro last hLast other hOther hNoNewer
        change last ∈ ((current ++ [item]) ++ rest).getLast?
          at hLast
        rw [← hSame] at hLast
        change other ∈ r.handled ++ [item] ∨ other ∈ rest ∨
          other ∈ r.expired
        rcases hSplit.covered last hLast other hOther
            hNoNewer with hHandled | hFetched | hExpired
        · exact .inl (List.mem_append_left _ hHandled)
        · rw [hBatch] at hFetched
          rcases List.mem_cons.mp hFetched with hFirst | hRest
          · rw [hFirst]
            exact .inl (List.mem_append_right _
              (List.mem_singleton_self _))
          · exact .inr (.inl hRest)
        · exact .inr (.inr hExpired)

/- The reader handles an item at most once in one life. -/
theorem Relay.Delivered.current_count_le
    (hSplit : r.Delivered key past current)
    (k : ν) :
    (current.map key).count k ≤ 1 := by
  have hCurrent := (List.pairwise_append.mp hSplit.ordered).1
  have hNodup : (current.map key).Nodup := by
    rw [List.Nodup, List.pairwise_map]
    exact hCurrent.imp fun hLess => ne_of_lt hLess
  exact List.nodup_iff_count_le_one.mp hNodup k

theorem Relay.Delivered.current_subset
    (hSplit : r.Delivered key past current) :
    current ⊆ r.published :=
  List.Subset.trans (List.subset_append_left _ _)
    hSplit.genuine

theorem Relay.Delivers.restart
    (hDelivers : r.Delivers key) :
    r.restart.Delivers key := by
  rcases hDelivers with
    ⟨hIncreasing, hKept, hAccounted, past, current, hSplit⟩
  refine
    { increasing := hIncreasing
      kept := hKept
      accounted := hAccounted
      split := ⟨past ++ current, [],
        { handled_eq := ?_
          cursor_eq := rfl
          ordered := .nil
          genuine := List.nil_subset _
          covered := fun _ hLast => nomatch hLast
          known := List.append_subset.mpr
            ⟨hSplit.known, hSplit.current_subset⟩
          repeats := ?_
          first := fun hNone => nomatch hNone }⟩ }
  · change r.handled = _
    rw [hSplit.handled_eq, List.append_nil]
  · intro k
    have hPast := hSplit.repeats k
    have hCurrent := hSplit.current_count_le k
    change _ ≤ r.restarts + 1
    rw [List.map_append, List.count_append]
    omega

theorem Relay.Delivers.handled_subset
    (hDelivers : r.Delivers key) :
    r.handled ⊆ r.published := by
  rcases hDelivers.split with ⟨past, current, hSplit⟩
  rw [hSplit.handled_eq, List.append_subset]
  exact ⟨hSplit.known, hSplit.current_subset⟩

/- Nothing is handled more often than the reader starts. -/
theorem Relay.Delivers.count_le
    (hDelivers : r.Delivers key)
    (k : ν) :
    (r.handled.map key).count k ≤ r.restarts + 1 := by
  rcases hDelivers.split with ⟨past, current, hSplit⟩
  have hPast := hSplit.repeats k
  have hCurrent := hSplit.current_count_le k
  rw [hSplit.handled_eq, List.map_append, List.count_append]
  omega

/- Of two lists in order, one is a part of the other. -/
theorem sublist_of_increasing
    (hPart : part.Pairwise (key · < key ·))
    (hLog : log.Pairwise (key · < key ·))
    (hSubset : part ⊆ log) :
    part.Sublist log := by
  have hNodup : part.Nodup := by
    refine hPart.imp ?_
    rintro early late hLess rfl
    exact lt_irrefl _ hLess
  have hAntisymm :
      Std.Antisymm fun early late : α => key early < key late :=
    ⟨fun _ _ hLess hMore => absurd hLess (lt_asymm hMore)⟩
  exact List.sublist_of_subperm_of_pairwise
    (hNodup.subperm hSubset) hPart hLog

/- And it is the first part if nothing is left out. -/
theorem isPrefix_of_increasing
    (hPart : part.Pairwise (key · < key ·))
    (hLog : log.Pairwise (key · < key ·))
    (hSubset : part ⊆ log)
    (hWhole : ∀ last ∈ part.getLast?,
      ∀ item ∈ log, key item ≤ key last → item ∈ part) :
    part <+: log := by
  induction log generalizing part with
  | nil =>
      rw [List.subset_nil.mp hSubset]
  | cons first rest ih =>
      cases part with
      | nil => exact List.nil_prefix
      | cons head tail =>
          rw [List.pairwise_cons] at hLog
          have hNewest := List.getLast?_eq_some_getLast
            (List.cons_ne_nil head tail)
          have hHeadLast := le_getLast? hPart hNewest
            List.mem_cons_self
          have hFirst : key first ≤ key head := by
            rcases List.mem_cons.mp
              (hSubset List.mem_cons_self) with hSame | hLater
            · rw [hSame]
            · exact le_of_lt (hLog.1 head hLater)
          -- the first item is no newer, so it is the head
          have hSame : first = head := by
            have hMem := hWhole _ hNewest first
              List.mem_cons_self (hFirst.trans hHeadLast)
            rcases List.mem_cons.mp hMem with hSame | hLater
            · exact hSame
            · have hMore :=
                (List.pairwise_cons.mp hPart).1 first hLater
              exact absurd hFirst (not_le_of_gt hMore)
          subst hSame
          rw [List.pairwise_cons] at hPart
          refine (List.prefix_cons_inj first).mpr
            (ih hPart.2 hLog.2 ?_ ?_)
          · intro item hItem
            rcases List.mem_cons.mp
              (hSubset (List.mem_cons_of_mem _ hItem)) with
                hSame | hLater
            · rw [hSame] at hItem
              exact absurd (hPart.1 _ hItem) (lt_irrefl _)
            · exact hLater
          · intro last hLast item hItem hNoNewer
            have hLast' : last ∈ (first :: tail).getLast? := by
              rw [List.getLast?_cons, Option.mem_def.mp hLast]
              rfl
            rcases List.mem_cons.mp (hWhole last hLast' item
              (List.mem_cons_of_mem _ hItem) hNoNewer) with
                hSame | hLater
            · rw [hSame] at hItem
              exact absurd (hLog.1 _ hItem) (lt_irrefl _)
            · exact hLater

/- In its first life the reader handles the log in order. -/
theorem Relay.Delivers.handled_sublist
    (hDelivers : r.Delivers key)
    (hNone : r.restarts = 0) :
    r.handled.Sublist r.published := by
  rcases hDelivers.split with ⟨past, current, hSplit⟩
  have hCurrent := (List.pairwise_append.mp hSplit.ordered).1
  rw [hSplit.handled_eq, hSplit.first hNone, List.nil_append]
  exact sublist_of_increasing hCurrent hDelivers.increasing
    hSplit.current_subset

/- If nothing expires either, it leaves nothing out. -/
theorem Relay.Delivers.handled_prefix
    (hDelivers : r.Delivers key)
    (hNone : r.restarts = 0)
    (hExpired : r.expired = []) :
    r.handled ++ r.batch <+: r.published := by
  rcases hDelivers.split with ⟨past, current, hSplit⟩
  have hHandled : r.handled = current := by
    rw [hSplit.handled_eq, hSplit.first hNone,
      List.nil_append]
  rw [hHandled]
  refine isPrefix_of_increasing hSplit.ordered
    hDelivers.increasing hSplit.genuine ?_
  intro last hLast item hItem hNoNewer
  rcases hSplit.covered last hLast item hItem hNoNewer with
    hDone | hFetched | hGone
  · rw [hHandled] at hDone
    exact List.mem_append_left _ hDone
  · exact List.mem_append_right _ hFetched
  · rw [hExpired] at hGone
    cases hGone

end Delivery

end Logs
