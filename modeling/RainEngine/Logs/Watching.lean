import Mathlib.Data.List.Infix
import Mathlib.Data.List.Perm.Subperm
import Mathlib.Data.List.Range

/-
  This file is about watching a log that grows at its end. A
  watcher looks at the log from time to time, and shows it if
  its newest item is another one than it has seen last. If no
  two items have the same key, nothing is shown twice, and
  after each look the log has been shown as it is.

  Key definitions include:
    * `newestKey`
    * `Watcher`
    * `Watcher.look`
    * `Outgrown`
    * `Watcher.Follows`

  Key theorems include:
    * `eq_of_newestKey`
    * `Watcher.Follows.extend`
    * `Watcher.Follows.look`
    * `Watcher.Follows.shown_length`
-/

namespace Logs

variable {α ν : Type}

/- The key of the newest item. -/
def newestKey
    (key : α → ν)
    (log : List α) :
    Option ν :=
  log.getLast?.map key

/- What a watcher has seen last, and what it has shown. -/
structure Watcher (α ν : Type) where
  seen : Option ν := none
  shown : List (List α) := []

/- The earlier list has become the later one by growing. -/
def Outgrown (early late : List α) : Prop :=
  early <+: late ∧ early ≠ late

section Looking

variable [DecidableEq ν]

/- Show the log unless its newest item was seen last. -/
def Watcher.look
    (key : α → ν)
    (w : Watcher α ν)
    (log : List α) :
    Watcher α ν :=
  if newestKey key log = w.seen then w
  else
    { seen := newestKey key log
      shown := w.shown ++ [log] }

end Looking

/-
  What has been shown are parts of the log, each of them grown
  out of the parts before it.
-/
structure Watcher.Follows
    (key : α → ν)
    (w : Watcher α ν)
    (log : List α) : Prop where
  parts : ∀ part ∈ w.shown, part <+: log
  inhabited : ∀ part ∈ w.shown, part ≠ []
  growing : w.shown.Pairwise Outgrown
  seen : w.seen = w.shown.getLast?.bind (newestKey key)

section Following

variable {key : α → ν}
variable {w : Watcher α ν}
variable {part log log' : List α}

theorem newestKey_eq_none_iff :
    newestKey key log = none ↔ log = [] := by
  unfold newestKey
  rw [Option.map_eq_none_iff, List.getLast?_eq_none_iff]

/- Of the parts of a log, only all of it has its newest key. -/
theorem eq_of_newestKey
    (hKeys : (log.map key).Nodup)
    (hPart : part <+: log)
    (hSame : newestKey key part = newestKey key log) :
    part = log := by
  rcases hPart with ⟨rest, rfl⟩
  rcases List.eq_nil_or_concat rest with hNil | hSnoc
  · rw [hNil, List.append_nil]
  · rcases hSnoc with ⟨more, last, rfl⟩
    rw [List.concat_eq_append, ← List.append_assoc,
      List.map_append, List.nodup_append] at hKeys
    unfold newestKey at hSame
    rw [List.concat_eq_append, ← List.append_assoc,
      List.getLast?_concat, Option.map_some,
      Option.map_eq_some_iff] at hSame
    rcases hSame with ⟨item, hItem, hKey⟩
    have hMem : item ∈ part ++ more :=
      List.mem_append_left _ (List.mem_of_getLast? hItem)
    have hApart := hKeys.2.2 (key item)
      (List.mem_map_of_mem hMem) (key last) (by simp)
    exact absurd hKey hApart

theorem Outgrown.trans_isPrefix
    {early late : List α}
    (hGrown : Outgrown early late)
    (hPrefix : late <+: log) :
    Outgrown early log := by
  refine ⟨hGrown.1.trans hPrefix, ?_⟩
  rintro rfl
  exact hGrown.2 (hGrown.1.eq_of_length_le hPrefix.length_le)

/- What is read off the items of a log grows with it. -/
theorem Outgrown.map
    {β : Type}
    {early late : List α}
    (hGrown : Outgrown early late)
    (read : α → β) :
    Outgrown (early.map read) (late.map read) := by
  refine ⟨hGrown.1.map read, ?_⟩
  intro hSame
  have hLength := congrArg List.length hSame
  rw [List.length_map, List.length_map] at hLength
  exact hGrown.2 (hGrown.1.eq_of_length hLength)

theorem follows_nothing
    (key : α → ν)
    (log : List α) :
    Watcher.Follows key {} log where
  parts := fun _ hMem => nomatch hMem
  inhabited := fun _ hMem => nomatch hMem
  growing := .nil
  seen := rfl

/- The log may grow between two looks. -/
theorem Watcher.Follows.extend
    (hFollows : w.Follows key log)
    (hGrows : log <+: log') :
    w.Follows key log' :=
  { hFollows with
    parts := fun part hMem =>
      (hFollows.parts part hMem).trans hGrows }

/- What has been seen last tells whether the log has grown. -/
theorem Watcher.Follows.shown_eq
    (hFollows : w.Follows key log)
    (hKeys : (log.map key).Nodup)
    (hSeen : newestKey key log = w.seen) :
    w.shown.getLast?.getD [] = log := by
  rw [hFollows.seen] at hSeen
  cases hLast : w.shown.getLast? with
  | none =>
      rw [hLast, Option.bind_none,
        newestKey_eq_none_iff] at hSeen
      exact hSeen.symm
  | some part =>
      rw [hLast, Option.bind_some] at hSeen
      have hMem : part ∈ w.shown := List.mem_of_getLast? hLast
      exact eq_of_newestKey hKeys (hFollows.parts part hMem)
        hSeen.symm

/- No more is shown than there are items. -/
theorem Watcher.Follows.shown_length
    (hFollows : w.Follows key log) :
    w.shown.length ≤ log.length := by
  have hIncreasing :
      (w.shown.map List.length).Pairwise (· < ·) := by
    rw [List.pairwise_map]
    refine hFollows.growing.imp ?_
    intro early late hGrown
    refine lt_of_le_of_ne hGrown.1.length_le ?_
    intro hSame
    exact hGrown.2 (hGrown.1.eq_of_length hSame)
  have hNodup : (w.shown.map List.length).Nodup :=
    hIncreasing.imp fun hLess => Nat.ne_of_lt hLess
  have hWithin :
      w.shown.map List.length ⊆
        List.range' 1 log.length := by
    intro length hMem
    rcases List.mem_map.mp hMem with ⟨part, hPart, rfl⟩
    have hPositive := List.length_pos_iff.mpr
      (hFollows.inhabited part hPart)
    have hBelow := (hFollows.parts part hPart).length_le
    rw [List.mem_range'_1]
    omega
  have hCount := (hNodup.subperm hWithin).length_le
  rw [List.length_map, List.length_range'] at hCount
  exact hCount

variable [DecidableEq ν]

/- A look keeps to the log, and shows it as it is. -/
theorem Watcher.Follows.look
    (hFollows : w.Follows key log)
    (hKeys : (log.map key).Nodup) :
    (w.look key log).Follows key log ∧
      (w.look key log).shown.getLast?.getD [] = log := by
  unfold Watcher.look
  by_cases hSeen : newestKey key log = w.seen
  · rw [if_pos hSeen]
    exact ⟨hFollows, hFollows.shown_eq hKeys hSeen⟩
  · rw [if_neg hSeen]
    refine ⟨?_, ?_⟩
    · -- the part shown last has another newest key
      have hLast : ∀ part ∈ w.shown.getLast?,
          Outgrown part log := by
        intro part hPart
        refine ⟨hFollows.parts part
          (List.mem_of_getLast? hPart), ?_⟩
        rintro rfl
        apply hSeen
        rw [hFollows.seen, Option.mem_def.mp hPart,
          Option.bind_some]
      have hOutgrown : ∀ part ∈ w.shown,
          Outgrown part log := by
        intro part hMem
        rcases List.eq_nil_or_concat w.shown with
          hNil | ⟨earlier, last, hSnoc⟩
        · rw [hNil] at hMem
          cases hMem
        · rw [List.concat_eq_append] at hSnoc
          have hNewest : Outgrown last log := by
            apply hLast
            rw [hSnoc]
            exact List.getLast?_concat
          have hGrowing := hFollows.growing
          rw [hSnoc] at hMem hGrowing
          rw [List.pairwise_append] at hGrowing
          rcases List.mem_append.mp hMem with hOld | hNew
          · exact (hGrowing.2.2 part hOld last
              (List.mem_singleton_self _)).trans_isPrefix
                hNewest.1
          · rw [List.mem_singleton.mp hNew]
            exact hNewest
      refine
        { parts := ?_
          inhabited := ?_
          growing := ?_
          seen := ?_ }
      · intro part hMem
        rcases List.mem_append.mp hMem with hOld | hNew
        · exact hFollows.parts part hOld
        · have hSame := List.mem_singleton.mp hNew
          subst hSame
          exact List.prefix_refl _
      · intro part hMem
        rcases List.mem_append.mp hMem with hOld | hNew
        · exact hFollows.inhabited part hOld
        · rw [List.mem_singleton.mp hNew]
          rintro rfl
          apply hSeen
          have hNothing : w.shown = [] := by
            apply List.eq_nil_iff_forall_not_mem.mpr
            intro earlier hEarlier
            exact hFollows.inhabited earlier hEarlier
              (List.prefix_nil.mp
                (hFollows.parts earlier hEarlier))
          rw [hFollows.seen, hNothing]
          rfl
      · rw [List.pairwise_append]
        refine ⟨hFollows.growing,
          List.pairwise_singleton _ _, ?_⟩
        intro early hEarly late hLate
        rw [List.mem_singleton.mp hLate]
        exact hOutgrown early hEarly
      · rw [List.getLast?_concat, Option.bind_some]
    · rw [List.getLast?_concat, Option.getD_some]

end Following

end Logs
