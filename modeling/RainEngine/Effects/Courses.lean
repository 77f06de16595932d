import RainEngine.Effects.Traces

/-
  This file follows executions through a composition. An
  execution of a composition stops in the first part, or it
  falls in two at the value that the first part returns.

  Key definitions include:
    * `Courses`

  Key theorems include:
    * `Exec.of_bind`
    * `Courses.bind`
    * `Courses.perform`
-/

namespace Effects

variable {E : Type} {A : E → Type} {ε α β W : Type}
variable {M : Machine E A W}
variable {p : Program E A ε α}
variable {w w' : W}

/-
  An execution of a composition does not get past its first
  part, or it falls in two where the first part returns.
-/
theorem Exec.of_bind
    {f : α → Program E A ε β}
    {steps : List (Step E A W)}
    {r : Option (Except ε β)}
    (hExec : Exec M w (p >>= f) steps w' r) :
    (∃ r', Exec M w p steps w' r' ∧
        ∀ b, r ≠ some (.ok b)) ∨
      ∃ a early v late, steps = early ++ late ∧
        Exec M w p early v (some (.ok a)) ∧
        Exec M v (f a) late w' r := by
  induction p generalizing w steps with
  | pure a =>
      exact .inr ⟨a, [], w, steps, rfl, .pure, hExec⟩
  | throw e =>
      left
      cases hExec with
      | stop => exact ⟨none, .stop, nofun⟩
      | throw => exact ⟨_, .throw, nofun⟩
  | request op k ih =>
      rcases hExec.of_request with
        ⟨hSteps, hSame, hResult⟩ |
        ⟨a, rest, hAllowed, hSteps, hRest⟩
      · left
        subst hSteps hSame hResult
        exact ⟨none, .stop, nofun⟩
      · subst hSteps
        rcases ih a hRest with
          ⟨r', hPart, hOpen⟩ |
          ⟨b, early, v, late, hSplit, hPart, hLate⟩
        · left
          exact ⟨r', .request hAllowed hPart, hOpen⟩
        · right
          refine ⟨b, ⟨w, op, a⟩ :: early, v, late, ?_,
            .request hAllowed hPart, hLate⟩
          rw [hSplit]
          rfl

/-
  `Courses M S p w`: every execution of `p` from the world `w`
  satisfies `S`, with its last world and its result.
-/
def Courses
    (M : Machine E A W)
    (S : List (Step E A W) → W → Option (Except ε α) → Prop)
    (p : Program E A ε α)
    (w : W) :
    Prop :=
  ∀ steps w' r, Exec M w p steps w' r → S steps w' r

variable {S S' :
  List (Step E A W) → W → Option (Except ε α) → Prop}

theorem Courses.mono
    (hMore : ∀ steps w' r, S steps w' r → S' steps w' r)
    (hCourses : Courses M S p w) :
    Courses M S' p w :=
  fun steps w' r hExec =>
    hMore steps w' r (hCourses steps w' r hExec)

theorem Courses.pure
    {a : α}
    (hEnds : ∀ r, S [] w r) :
    Courses M S (.pure a) w := by
  intro steps w' r hExec
  rcases hExec.of_pure with ⟨hSteps, hSame, _⟩
  subst hSteps hSame
  exact hEnds r

/- The rest follows an execution of the first part. -/
theorem Courses.bind
    {f : α → Program E A ε β}
    {T : List (Step E A W) → W → Option (Except ε β) → Prop}
    (hStop : ∀ steps w' r r',
      Exec M w p steps w' r' → (∀ b, r ≠ some (.ok b)) →
        T steps w' r)
    (hNext : ∀ a early v,
      Exec M w p early v (some (.ok a)) →
        Courses M
          (fun late w' r => T (early ++ late) w' r) (f a) v) :
    Courses M T (p >>= f) w := by
  intro steps w' r hExec
  rcases hExec.of_bind with
    ⟨r', hPart, hOpen⟩ |
    ⟨a, early, v, late, hSplit, hPart, hLate⟩
  · exact hStop steps w' r r' hPart hOpen
  · rw [hSplit]
    exact hNext a early v hPart late w' r hLate

/- One request comes before the rest. -/
theorem Courses.perform
    {op : E}
    {f : A op → Program E A ε α}
    (hStop : ∀ r, S [] w r)
    (hNext : ∀ a, M.allowed w op a →
      Courses M
        (fun rest w' r => S (⟨w, op, a⟩ :: rest) w' r) (f a)
        (M.next w op a)) :
    Courses M S (Program.perform op >>= f) w := by
  intro steps w' r hExec
  rcases hExec.of_request with
    ⟨hSteps, hSame, _⟩ |
    ⟨a, rest, hAllowed, hSteps, hRest⟩
  · subst hSteps hSame
    exact hStop r
  · subst hSteps
    exact hNext a hAllowed rest w' r hRest

end Effects
