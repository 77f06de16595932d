import Mathlib.Logic.Function.Basic
import Mathlib.Logic.Relation
import Mathlib.Order.Bounds.Defs
import RainEngine.Dependencies.Cascade

/-
  This file is about schedules of a dependency system, in
  which one item after the other is tried or given up. When
  nothing more can be done, the items left open are the most
  that can wait for each other or for something outside.

  Key definitions include:
    * `Turn`
    * `Schedule`
    * `Waiting`

  Key theorems include:
    * `Schedule.kept`
    * `Schedule.open_of_waiting`
    * `Schedule.isGreatest_open`
-/

namespace Dependencies

------------------------------------------------------------
-- Schedules
------------------------------------------------------------

section Schedules

variable {ι : Type}
variable [DecidableEq ι]

/-
  One turn of a schedule. An open item is given up when it
  needs one that has failed, or ends, with success or without,
  when all it needs has succeeded.
-/
inductive Turn
    (S : System ι)
    (status : ι → Option Bool) :
    (ι → Option Bool) → Prop where
  | giveUp {i j : ι}
      (hMember : S.member i)
      (hOpen : status i = none)
      (hNeeds : S.needs i j)
      (hFailed : status j = some false) :
      Turn S status (Function.update status i (some false))
  | finish {i : ι} (succeeds : Bool)
      (hMember : S.member i)
      (hOpen : status i = none)
      (hNeeds : ∀ j, S.needs i j → status j = some true) :
      Turn S status
        (Function.update status i (some succeeds))

/- Any number of turns. -/
def Schedule (S : System ι) :
    (ι → Option Bool) → (ι → Option Bool) → Prop :=
  Relation.ReflTransGen (Turn S)

/-
  Items that were open at first, need none that has failed,
  and each need another one of them or something outside that
  has not succeeded.
-/
structure Waiting
    (S : System ι)
    (first last : ι → Option Bool)
    (items : Set ι) : Prop where
  members : ∀ i ∈ items, S.member i ∧ first i = none
  unblocked :
    ∀ i ∈ items, ∀ j, S.needs i j → last j ≠ some false
  starved :
    ∀ i ∈ items, ∃ j, S.needs i j ∧
      (j ∈ items ∨ ¬S.member j ∧ last j ≠ some true)

variable {S : System ι}
variable {first status last : ι → Option Bool}
variable {items : Set ι}

theorem Turn.kept
    {i : ι}
    {b : Bool}
    (hTurn : Turn S status last)
    (hStatus : status i = some b) :
    last i = some b := by
  have hOther : ∀ j, status j = none → i ≠ j := by
    intro j hOpen hSame
    rw [hSame, hOpen] at hStatus
    cases hStatus
  cases hTurn with
  | giveUp _ hOpen _ _ =>
      rw [Function.update_of_ne (hOther _ hOpen)]
      exact hStatus
  | finish succeeds _ hOpen _ =>
      rw [Function.update_of_ne (hOther _ hOpen)]
      exact hStatus

/- What is decided stays as it is. -/
theorem Schedule.kept
    {i : ι}
    {b : Bool}
    (hRun : Schedule S status last)
    (hStatus : status i = some b) :
    last i = some b := by
  induction hRun using Relation.ReflTransGen.head_induction_on
    with
  | refl => exact hStatus
  | head hTurn _ ih => exact ih (hTurn.kept hStatus)

/- No turn decides an item that is waiting. -/
theorem Waiting.turn
    {next : ι → Option Bool}
    (hWaiting : Waiting S first last items)
    (hTurn : Turn S status next)
    (hRest : Schedule S status last)
    (hOpen : ∀ i ∈ items, status i = none) :
    ∀ i ∈ items, next i = none := by
  intro i hItem
  cases hTurn with
  | @giveUp k j _ hStatus hNeeds hFailed =>
      by_cases hSame : i = k
      · subst hSame
        exact absurd (hRest.kept hFailed)
          (hWaiting.unblocked i hItem j hNeeds)
      · rw [Function.update_of_ne hSame]
        exact hOpen i hItem
  | @finish k succeeds _ hStatus hNeeds =>
      by_cases hSame : i = k
      · subst hSame
        rcases hWaiting.starved i hItem with
          ⟨j, hNeed, hIn | ⟨_, hLast⟩⟩
        · have hDone := hNeeds j hNeed
          rw [hOpen j hIn] at hDone
          cases hDone
        · exact absurd (hRest.kept (hNeeds j hNeed)) hLast
      · rw [Function.update_of_ne hSame]
        exact hOpen i hItem

/- Waiting items are open in the end. -/
theorem Schedule.open_of_waiting
    (hRun : Schedule S first last)
    (hWaiting : Waiting S first last items) :
    ∀ i ∈ items, last i = none := by
  have hOpen : ∀ i ∈ items, first i = none :=
    fun i hItem => (hWaiting.members i hItem).2
  have hAll : ∀ status, Schedule S status last →
      (∀ i ∈ items, status i = none) →
        ∀ i ∈ items, last i = none := by
    intro status hRest
    induction hRest using Relation.ReflTransGen.head_induction_on
      with
    | refl => exact fun hOpen => hOpen
    | head hTurn hRest ih =>
        intro hOpen
        exact ih (hWaiting.turn hTurn (.head hTurn hRest) hOpen)
  exact hAll first hRun hOpen

/- What is left open in the end is waiting. -/
theorem Schedule.waiting_open
    (hRun : Schedule S first last)
    (hQuiet : Quiet S last) :
    Waiting S first last
      {i | S.member i ∧ last i = none} := by
  constructor
  · rintro i ⟨hMember, hOpen⟩
    refine ⟨hMember, ?_⟩
    cases hFirst : first i with
    | none => rfl
    | some b =>
        have hLast := hRun.kept hFirst
        rw [hOpen] at hLast
        cases hLast
  · rintro i ⟨hMember, hOpen⟩ j hNeeds
    exact (hQuiet i hMember hOpen).1 j hNeeds
  · rintro i ⟨hMember, hOpen⟩
    rcases hQuiet i hMember hOpen with
      ⟨hUnblocked, j, hNeeds, hTrue⟩
    refine ⟨j, hNeeds, ?_⟩
    by_cases hIn : S.member j
    · left
      refine ⟨hIn, ?_⟩
      have hFalse := hUnblocked j hNeeds
      cases hLast : last j with
      | none => rfl
      | some b =>
          cases b with
          | true => exact absurd hLast hTrue
          | false => exact absurd hLast hFalse
    · exact .inr ⟨hIn, hTrue⟩

/-
  When nothing more can be done, what is left open is the
  greatest set of waiting items.
-/
theorem Schedule.isGreatest_open
    (hRun : Schedule S first last)
    (hQuiet : Quiet S last) :
    IsGreatest {items | Waiting S first last items}
      {i | S.member i ∧ last i = none} := by
  constructor
  · exact hRun.waiting_open hQuiet
  · intro items hWaiting i hItem
    exact ⟨(hWaiting.members i hItem).1,
      hRun.open_of_waiting hWaiting i hItem⟩

end Schedules

end Dependencies
