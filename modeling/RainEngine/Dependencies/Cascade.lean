import Mathlib.Logic.Basic

/-
  This file defines when the items of a dependency system get
  settled: an item succeeds or fails once everything it needs
  has succeeded, and is given up once something it needs has
  not.

  Key definitions include:
    * `System`
    * `Settles`
    * `Honest`
    * `Quiet`

  Key theorems include:
    * `Settles.decided`
    * `Settles.unique`
    * `Settles.not_in_loop`
    * `settles_of_rank`
-/

namespace Dependencies

/-
  The items of a system, those that succeed when they are
  tried, and what each of them needs first.
-/
structure System (ι : Type) where
  member : ι → Prop
  works : ι → Prop
  needs : ι → ι → Prop

/-
  `Settles S true i`: the item succeeds when no item that
  works fails. `Settles S false i`: it is settled without
  success, whatever the others do.
-/
inductive Settles
    {ι : Type}
    (S : System ι) :
    Bool → ι → Prop where
  | succeeds {i : ι}
      (hMember : S.member i)
      (hWorks : S.works i)
      (hNeeds : ∀ j, S.needs i j → Settles S true j) :
      Settles S true i
  | fails {i : ι}
      (hMember : S.member i)
      (hFails : ¬S.works i)
      (hNeeds : ∀ j, S.needs i j → Settles S true j) :
      Settles S false i
  | blocked {i j : ι}
      (hMember : S.member i)
      (hNeeds : S.needs i j)
      (hBlocked : Settles S false j) :
      Settles S false i

section Assignments

variable {ι : Type}
variable {S : System ι}
variable {status : ι → Option Bool}

/- Only an item that works and may be tried has succeeded. -/
def Honest
    (S : System ι)
    (status : ι → Option Bool) :
    Prop :=
  ∀ i, status i = some true →
    S.works i ∧ ∀ j, S.needs i j → status j = some true

/- An open item is not blocked and cannot be tried. -/
def Quiet
    (S : System ι)
    (status : ι → Option Bool) :
    Prop :=
  ∀ i, S.member i → status i = none →
    (∀ j, S.needs i j → status j ≠ some false) ∧
      ∃ j, S.needs i j ∧ status j ≠ some true

/- An item all of whose needs are decided is decided. -/
theorem Quiet.decided_of_needs
    {i : ι}
    (hQuiet : Quiet S status)
    (hMember : S.member i)
    (hNeeds : ∀ j, S.needs i j → status j ≠ none) :
    status i ≠ none := by
  intro hOpen
  rcases hQuiet i hMember hOpen with
    ⟨hUnblocked, j, hNeed, hTrue⟩
  have hFalse := hUnblocked j hNeed
  cases hStatus : status j with
  | none => exact hNeeds j hNeed hStatus
  | some b =>
      cases b with
      | true => exact hTrue hStatus
      | false => exact hFalse hStatus

/-
  When nothing more can be done, every item that settles is
  decided, and those that settle without success have none.
-/
theorem Settles.decided
    {b : Bool}
    {i : ι}
    (hHonest : Honest S status)
    (hQuiet : Quiet S status)
    (hSettles : Settles S b i) :
    status i ≠ none ∧ (b = false → status i = some false) := by
  induction hSettles with
  | succeeds hMember hWorks hNeeds ih =>
      refine ⟨?_, nofun⟩
      exact hQuiet.decided_of_needs hMember
        (fun j hNeed => (ih j hNeed).1)
  | @fails i hMember hFails hNeeds ih =>
      have hDecided := hQuiet.decided_of_needs hMember
        (fun j hNeed => (ih j hNeed).1)
      refine ⟨hDecided, fun _ => ?_⟩
      cases hStatus : status i with
      | none => exact absurd hStatus hDecided
      | some b =>
          cases b with
          | true => exact absurd (hHonest i hStatus).1 hFails
          | false => rfl
  | @blocked i j hMember hNeeds hBlocked ih =>
      have hFalse := ih.2 rfl
      cases hStatus : status i with
      | none =>
          have hUnblocked := (hQuiet i hMember hStatus).1
          exact absurd hFalse (hUnblocked j hNeeds)
      | some b =>
          cases b with
          | true =>
              have hTrue := (hHonest i hStatus).2 j hNeeds
              rw [hFalse] at hTrue
              cases hTrue
          | false => exact ⟨nofun, fun _ => rfl⟩

/- An item settles in one way only. -/
theorem Settles.unique
    {b b' : Bool}
    {i : ι}
    (hSettles : Settles S b i)
    (hOther : Settles S b' i) :
    b = b' := by
  induction hSettles generalizing b' with
  | succeeds hMember hWorks hNeeds ih =>
      cases hOther with
      | succeeds => rfl
      | fails _ hFails _ => exact absurd hWorks hFails
      | blocked _ hNeed hBlocked => exact ih _ hNeed hBlocked
  | fails hMember hFails hNeeds ih =>
      cases hOther with
      | succeeds _ hWorks _ => exact absurd hWorks hFails
      | fails => rfl
      | blocked => rfl
  | blocked hMember hNeed hBlocked ih =>
      cases hOther with
      | succeeds _ _ hNeeds => exact ih (hNeeds _ hNeed)
      | fails => rfl
      | blocked => rfl

/- Items that wait for each other only never settle. -/
theorem Settles.not_in_loop
    {b : Bool}
    {i : ι}
    (loop : ι → Prop)
    (hWaits : ∀ i, loop i → ∃ j, S.needs i j ∧ loop j)
    (hClosed : ∀ i j, loop i → S.needs i j → loop j)
    (hSettles : Settles S b i) :
    ¬loop i := by
  induction hSettles with
  | @succeeds i hMember hWorks hNeeds ih =>
      intro hLoop
      rcases hWaits i hLoop with ⟨j, hNeed, hIn⟩
      exact ih j hNeed hIn
  | @fails i hMember hFails hNeeds ih =>
      intro hLoop
      rcases hWaits i hLoop with ⟨j, hNeed, hIn⟩
      exact ih j hNeed hIn
  | @blocked i j hMember hNeed hBlocked ih =>
      intro hLoop
      exact ih (hClosed i j hLoop hNeed)

/- Where needs go down a rank, every member settles. -/
theorem settles_of_rank
    (rank : ι → Nat)
    (hRank : ∀ i j, S.member i → S.needs i j →
      S.member j ∧ rank j < rank i)
    {i : ι}
    (hMember : S.member i) :
    ∃ b, Settles S b i := by
  induction hSize : rank i using Nat.strongRecOn
    generalizing i with
  | _ size ih =>
      subst hSize
      by_cases hBlocked :
          ∃ j, S.needs i j ∧ Settles S false j
      · rcases hBlocked with ⟨j, hNeed, hFalse⟩
        exact ⟨false, .blocked hMember hNeed hFalse⟩
      · have hNeeds :
            ∀ j, S.needs i j → Settles S true j := by
          intro j hNeed
          rcases hRank i j hMember hNeed with
            ⟨hItem, hLess⟩
          rcases ih (rank j) hLess hItem rfl with
            ⟨b, hSettles⟩
          cases b with
          | true => exact hSettles
          | false =>
              exact absurd ⟨j, hNeed, hSettles⟩ hBlocked
        by_cases hWorks : S.works i
        · exact ⟨true, .succeeds hMember hWorks hNeeds⟩
        · exact ⟨false, .fails hMember hWorks hNeeds⟩

end Assignments

end Dependencies
