import Mathlib.Logic.Function.Basic
import RainEngine.Logs.Keyed

/-
  This file is about a table with a live copy in front of it.
  A write is stored in the table first and published in the
  copy later. A reload forgets the copy and the writes that
  are underway, and starts from what it has read.

  The copy of a key is what has been stored for it last since
  the last reload, or else what the reload has read, as long
  as no write of the key is stored while another one is still
  to be published.

  Key definitions include:
    * `lastOf`
    * `Mirror`
    * `Mirror.step`
    * `Mirror.current`
    * `Mirror.Proper`
    * `Mirror.Settled`

  Key theorems include:
    * `find?_upsert`
    * `find?_own`
    * `Mirror.Settled.step`
-/

namespace Tables

variable {ι κ α : Type}
variable [DecidableEq ι] [DecidableEq κ]

------------------------------------------------------------
-- Tables Of Puts
------------------------------------------------------------

/- The value that was written last for a key. -/
def lastOf
    (written : List (κ × α))
    (k : κ) :
    Option α :=
  written.foldl
    (fun found w => if w.1 = k then some w.2 else found) none

theorem lastOf_concat
    (written : List (κ × α))
    (w : κ × α)
    (k : κ) :
    lastOf (written ++ [w]) k =
      if w.1 = k then some w.2 else lastOf written k := by
  unfold lastOf
  rw [List.foldl_append]
  rfl

theorem mem_of_lastOf
    {written : List (κ × α)}
    {k : κ}
    {value : α}
    (hLast : lastOf written k = some value) :
    (k, value) ∈ written := by
  induction written using List.reverseRecOn with
  | nil => cases hLast
  | append_singleton written w ih =>
      rw [lastOf_concat] at hLast
      by_cases hKey : w.1 = k
      · rw [if_pos hKey] at hLast
        cases hLast
        rw [← hKey]
        exact List.mem_append_right _
          (List.mem_singleton_self _)
      · rw [if_neg hKey] at hLast
        exact List.mem_append_left _ (ih hLast)

/- A put is found under its key, and hides no other item. -/
theorem find?_upsert
    (key : α → κ)
    (items : List α)
    (value : α)
    (k : κ) :
    (Logs.upsert key items value).find? (key · = k) =
      if key value = k then some value
      else items.find? (key · = k) := by
  induction items with
  | nil =>
      unfold Logs.upsert
      by_cases hKey : key value = k <;> simp [hKey]
  | cons item rest ih =>
      unfold Logs.upsert
      by_cases hSame : key item = key value
      · rw [if_pos hSame]
        by_cases hKey : key value = k
        · simp [hKey]
        · have hItem : key item ≠ k := by
            rwa [hSame]
          simp [hKey, hItem]
      · rw [if_neg hSame]
        by_cases hItem : key item = k
        · have hKey : key value ≠ k := by
            rw [← hItem]
            exact Ne.symm hSame
          simp [hItem, hKey]
        · simp [hItem, ih]

/- Distinct keys find their own items. -/
theorem find?_own
    {key : α → κ}
    {items : List α}
    {item : α}
    (hNodup : (items.map key).Nodup)
    (hMem : item ∈ items) :
    items.find? (key · = key item) = some item := by
  induction items with
  | nil => cases hMem
  | cons first rest ih =>
      rw [List.map_cons, List.nodup_cons] at hNodup
      rw [List.find?_cons]
      rcases List.mem_cons.mp hMem with hFirst | hRest
      · rw [hFirst, decide_eq_true rfl]
      · have hApart : key first ≠ key item := by
          intro hSame
          apply hNodup.1
          rw [hSame]
          exact List.mem_map_of_mem hRest
        rw [decide_eq_false hApart]
        exact ih hNodup.2 hRest

------------------------------------------------------------
-- Mirrors
------------------------------------------------------------

/-
  What the last reload has read and what has been written
  since, the live copy, and the writes of the writers that
  have stored and not published.
-/
structure Mirror (ι κ α : Type) where
  base : κ → Option α
  written : List (κ × α) := []
  live : κ → Option α
  underway : ι → Option (κ × α) := fun _ => none

inductive MirrorAction (ι κ α : Type) where
  | store (writer : ι) (k : κ) (value : α)
  | publish (writer : ι)
  | reload (read : κ → Option α)

namespace Mirror

def current (m : Mirror ι κ α) (k : κ) : Option α :=
  (lastOf m.written k).or (m.base k)

/- Writers wait until their write has been published. -/
def step
    (m : Mirror ι κ α) :
    MirrorAction ι κ α → Option (Mirror ι κ α)
| .store writer k value =>
    if (m.underway writer).isSome then none
    else some
      { m with
        written := m.written ++ [(k, value)]
        underway := Function.update m.underway writer
          (some (k, value)) }
| .publish writer =>
    (m.underway writer).map fun w =>
      { m with
        live := Function.update m.live w.1 (some w.2)
        underway := Function.update m.underway writer none }
| .reload read => some { base := read, live := read }

/- No write of the key is underway. -/
def Idle (m : Mirror ι κ α) (k : κ) : Prop :=
  ∀ writer value, m.underway writer ≠ some (k, value)

/- A write of the key is only stored when none is underway. -/
def Proper
    (k : κ)
    (m : Mirror ι κ α) :
    MirrorAction ι κ α → Prop
| .store _ k' _ => k' = k → m.Idle k
| .publish _ => True
| .reload _ => True

/-
  A write of the key that is underway is the last one stored,
  and no other one is; without one the copy is up to date.
-/
structure Settled
    (k : κ)
    (m : Mirror ι κ α) : Prop where
  newest : ∀ writer value,
    m.underway writer = some (k, value) →
      m.current k = some value
  single : ∀ writer writer' value value',
    m.underway writer = some (k, value) →
      m.underway writer' = some (k, value') →
        writer = writer'
  agrees : m.Idle k → m.live k = m.current k

section Settled

variable {m m' : Mirror ι κ α}
variable {action : MirrorAction ι κ α}
variable {k : κ}

theorem Settled.store_own
    {writer : ι}
    {value : α}
    (hIdle : m.Idle k) :
    Settled k
      { m with
        written := m.written ++ [(k, value)]
        underway := Function.update m.underway writer
          (some (k, value)) } := by
  have hOnly : ∀ writer' value',
      Function.update m.underway writer
          (some (k, value)) writer' = some (k, value') →
        writer' = writer ∧ value' = value := by
    intro writer' value' hUnderway
    by_cases hWriter : writer' = writer
    · subst hWriter
      rw [Function.update_self] at hUnderway
      cases hUnderway
      exact ⟨rfl, rfl⟩
    · rw [Function.update_of_ne hWriter] at hUnderway
      exact absurd hUnderway (hIdle writer' value')
  constructor
  · intro writer' value' hUnderway
    rw [(hOnly writer' value' hUnderway).2]
    unfold current
    dsimp only
    rw [lastOf_concat, if_pos rfl, Option.some_or]
  · intro one other v v' hOne hOther
    rw [(hOnly one v hOne).1, (hOnly other v' hOther).1]
  · intro hNone
    exact absurd (Function.update_self _ _ _)
      (hNone writer value)

theorem Settled.store_other
    {writer : ι}
    {k' : κ}
    {value : α}
    (hSettled : m.Settled k)
    (hFree : m.underway writer = none)
    (hKey : k' ≠ k) :
    Settled k
      { m with
        written := m.written ++ [(k', value)]
        underway := Function.update m.underway writer
          (some (k', value)) } := by
  have hUnderway : ∀ writer' v,
      Function.update m.underway writer
          (some (k', value)) writer' = some (k, v) ↔
        m.underway writer' = some (k, v) := by
    intro writer' v
    by_cases hWriter : writer' = writer
    · subst hWriter
      rw [Function.update_self, hFree]
      simp [hKey]
    · rw [Function.update_of_ne hWriter]
  have hCurrent :
      (lastOf (m.written ++ [(k', value)]) k).or (m.base k) =
        m.current k := by
    rw [lastOf_concat, if_neg hKey]
    rfl
  constructor
  · intro writer' v hHere
    exact hCurrent.trans (hSettled.newest writer' v
      ((hUnderway writer' v).mp hHere))
  · intro one other v v' hOne hOther
    exact hSettled.single one other v v'
      ((hUnderway one v).mp hOne)
      ((hUnderway other v').mp hOther)
  · intro hNone
    refine Eq.trans (hSettled.agrees ?_) hCurrent.symm
    intro writer' v hHere
    exact hNone writer' v ((hUnderway writer' v).mpr hHere)

theorem Settled.publish
    {writer : ι}
    {w : κ × α}
    (hSettled : m.Settled k)
    (hWriter : m.underway writer = some w) :
    Settled k
      { m with
        live := Function.update m.live w.1 (some w.2)
        underway :=
          Function.update m.underway writer none } := by
  have hStill : ∀ writer' v,
      Function.update m.underway writer none writer' =
          some (k, v) →
        m.underway writer' = some (k, v) ∧
          writer' ≠ writer := by
    intro writer' v hHere
    by_cases hSame : writer' = writer
    · subst hSame
      rw [Function.update_self] at hHere
      cases hHere
    · rw [Function.update_of_ne hSame] at hHere
      exact ⟨hHere, hSame⟩
  constructor
  · intro writer' v hHere
    exact hSettled.newest writer' v (hStill _ _ hHere).1
  · intro one other v v' hOne hOther
    exact hSettled.single one other v v'
      (hStill _ _ hOne).1 (hStill _ _ hOther).1
  · intro hNone
    by_cases hKey : w.1 = k
    · -- the write that is published is the last one stored
      subst hKey
      exact (Function.update_self _ _ _).trans
        (hSettled.newest writer w.2 hWriter).symm
    · refine (Function.update_of_ne (Ne.symm hKey) _ _).trans
        (hSettled.agrees ?_)
      intro writer' v hHere
      by_cases hSame : writer' = writer
      · subst hSame
        rw [hWriter] at hHere
        cases hHere
        exact hKey rfl
      · apply hNone writer' v
        exact (Function.update_of_ne hSame _ _).trans hHere

theorem Settled.step
    (hSettled : m.Settled k)
    (hProper : Proper k m action)
    (hStep : m.step action = some m') :
    m'.Settled k := by
  cases action with
  | store writer k' value =>
      dsimp only [Mirror.step] at hStep
      split at hStep
      · cases hStep
      · rename_i hFree
        rw [Bool.not_eq_true, Option.isSome_eq_false_iff,
          Option.isNone_iff_eq_none] at hFree
        cases hStep
        by_cases hKey : k' = k
        · subst hKey
          exact Settled.store_own (hProper rfl)
        · exact hSettled.store_other hFree hKey
  | publish writer =>
      dsimp only [Mirror.step] at hStep
      rcases Option.map_eq_some_iff.mp hStep with
        ⟨w, hWriter, hNext⟩
      cases hNext
      exact hSettled.publish hWriter
  | reload read =>
      cases hStep
      constructor
      · intro writer v hHere
        cases hHere
      · intro one other v v' hOne
        cases hOne
      · intro _
        rfl

end Settled

end Mirror

end Tables
