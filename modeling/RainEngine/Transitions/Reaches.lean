import Mathlib.Data.Option.Basic

/-
  This file is about systems that take one step after another.
  A step may be impossible in a state. What every step keeps
  that meets a condition, every run keeps whose steps all meet
  it.

  Key definitions include:
    * `Reaches`
    * `follow`

  Key theorems include:
    * `Reaches.invariant`
    * `follow_reaches`
-/

namespace Transitions

variable {S A : Type}

/- The steps from a start, each with the state it is made in. -/
inductive Reaches
    (step : S → A → Option S)
    (start : S) :
    List (S × A) → S → Prop where
  | start : Reaches step start [] start
  | step {trace : List (S × A)} {s s' : S} {action : A}
      (hReach : Reaches step start trace s)
      (hStep : step s action = some s') :
      Reaches step start (trace ++ [(s, action)]) s'

section Runs

variable {step : S → A → Option S}
variable {start s : S}
variable {trace : List (S × A)}
variable {I : S → Prop}
variable {C : S → A → Prop}

/- The invariant rule, for runs of steps with a condition. -/
theorem Reaches.invariant
    (hStart : I start)
    (hStep : ∀ s action s', I s → C s action →
      step s action = some s' → I s')
    (hReach : Reaches step start trace s)
    (hSteps : ∀ p ∈ trace, C p.1 p.2) :
    I s ∧ ∀ p ∈ trace, I p.1 := by
  induction hReach with
  | start => exact ⟨hStart, by simp⟩
  | @step trace s s' action hReach hNext ih =>
      have hBefore : ∀ p ∈ trace, C p.1 p.2 :=
        fun p hMem => hSteps p (List.mem_append_left _ hMem)
      have hLast : C s action :=
        hSteps (s, action) (by simp)
      rcases ih hBefore with ⟨hHere, hEarlier⟩
      refine ⟨hStep s action s' hHere hLast hNext, ?_⟩
      intro p hMem
      rcases List.mem_append.mp hMem with hOld | hNew
      · exact hEarlier p hOld
      · rw [List.mem_singleton] at hNew
        rw [hNew]
        exact hHere

/- The invariant rule without a condition. -/
theorem Reaches.always
    (hStart : I start)
    (hStep : ∀ s action s', I s →
      step s action = some s' → I s')
    (hReach : Reaches step start trace s) :
    I s :=
  (hReach.invariant (C := fun _ _ => True) hStart
    (fun s action s' hHere _ hNext =>
      hStep s action s' hHere hNext)
    (fun _ _ => trivial)).1

end Runs

/- Take the steps of a list, as long as they are possible. -/
def follow
    (step : S → A → Option S) :
    List (S × A) → S → List A → List (S × A) × S
| trace, s, [] => (trace, s)
| trace, s, action :: rest =>
    match step s action with
    | none => (trace, s)
    | some s' => follow step (trace ++ [(s, action)]) s' rest

theorem follow_reaches
    {step : S → A → Option S}
    {start s : S}
    {trace : List (S × A)}
    (actions : List A)
    (hReach : Reaches step start trace s) :
    Reaches step start (follow step trace s actions).1
      (follow step trace s actions).2 := by
  induction actions generalizing trace s with
  | nil => exact hReach
  | cons action rest ih =>
      unfold follow
      split
      · exact hReach
      · rename_i s' hNext
        exact ih (hReach.step hNext)

end Transitions
