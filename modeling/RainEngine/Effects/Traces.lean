import RainEngine.Effects.Program

/-
  This file defines the traces of a program: the requests it
  issues together with their answers, in order, on every path
  it can take. A property of traces is followed through a
  composition part by part.

  Key definitions include:
    * `Exchange`
    * `Yields`
    * `Traces`

  Key theorems include:
    * `Yields.mono`
    * `Yields.bind`
    * `Uses.yields`
    * `Uses.traces_bind`
    * `Yields.exec`
    * `safe_exec`
-/

namespace Effects

variable {E : Type} {A : E → Type} {ε α β W : Type}

/- A request and the answer it got. -/
abbrev Exchange (A : E → Type) : Type :=
  Sigma A

def Step.exchange (s : Step E A W) : Exchange A :=
  ⟨s.op, s.answer⟩

/-
  `Yields S R p`: whatever the answers are, the exchanges of
  `p` satisfy `S` wherever it is stopped, and they satisfy `R`
  together with the value it returns.
-/
def Yields
    (S : List (Exchange A) → Prop)
    (R : List (Exchange A) → α → Prop) :
    Program E A ε α → Prop
  | .pure a => S [] ∧ R [] a
  | .throw _ => S []
  | .request op k =>
      S [] ∧ ∀ a : A op,
        Yields (fun trace => S (⟨op, a⟩ :: trace))
          (fun trace => R (⟨op, a⟩ :: trace)) (k a)

/- Every trace of the program satisfies `S`. -/
abbrev Traces
    (S : List (Exchange A) → Prop)
    (p : Program E A ε α) :
    Prop :=
  Yields S (fun trace _ => S trace) p

section Rules

variable {S S' : List (Exchange A) → Prop}
variable {R R' : List (Exchange A) → α → Prop}
variable {p : Program E A ε α}

@[simp] theorem yields_pure
    {a : α} :
    Yields S R (pure a : Program E A ε α) ↔
      S [] ∧ R [] a :=
  Iff.rfl

@[simp] theorem yields_throw
    {e : ε} :
    Yields S R (.throw e : Program E A ε α) ↔ S [] :=
  Iff.rfl

@[simp] theorem yields_request
    {op : E}
    {k : A op → Program E A ε α} :
    Yields S R (.request op k) ↔
      S [] ∧ ∀ a : A op,
        Yields (fun trace => S (⟨op, a⟩ :: trace))
          (fun trace => R (⟨op, a⟩ :: trace)) (k a) :=
  Iff.rfl

theorem Yields.mono
    (hS : ∀ trace, S trace → S' trace)
    (hR : ∀ trace a, R trace a → R' trace a)
    (hYields : Yields S R p) :
    Yields S' R' p := by
  induction p generalizing S S' R R' with
  | pure a => exact ⟨hS _ hYields.1, hR _ _ hYields.2⟩
  | throw e => exact hS _ hYields
  | request op k ih =>
      refine ⟨hS _ hYields.1, ?_⟩
      intro a
      exact ih a (fun _ => hS _) (fun _ => hR _)
        (hYields.2 a)

/- The traces of a part come before those of the rest. -/
theorem Yields.bind
    {f : α → Program E A ε β}
    {T : List (Exchange A) → Prop}
    {Q : List (Exchange A) → β → Prop}
    (hYields : Yields S R p)
    (hStop : ∀ trace, S trace → T trace)
    (hNext : ∀ trace a, R trace a →
      Yields (fun rest => T (trace ++ rest))
        (fun rest => Q (trace ++ rest)) (f a)) :
    Yields T Q (p >>= f) := by
  induction p generalizing S R T Q with
  | pure a => exact hNext [] a hYields.2
  | throw e => exact hStop [] hYields
  | request op k ih =>
      refine ⟨hStop [] hYields.1, ?_⟩
      intro a
      exact ih a (hYields.2 a) (fun _ => hStop _)
        (fun trace a' => hNext (⟨op, a⟩ :: trace) a')

/- What a composition yields, the rest does after a part. -/
theorem Yields.of_bind
    {f : α → Program E A ε β}
    {T : List (Exchange A) → Prop}
    {Q : List (Exchange A) → β → Prop}
    (hYields : Yields T Q (p >>= f)) :
    Yields (fun _ => True)
      (fun trace a =>
        Yields (fun rest => T (trace ++ rest))
          (fun rest => Q (trace ++ rest)) (f a)) p := by
  induction p generalizing T Q with
  | pure a => exact ⟨trivial, hYields⟩
  | throw e => trivial
  | request op k ih =>
      refine ⟨trivial, ?_⟩
      intro a
      exact ih a (hYields.2 a)

/- One request comes before the rest. -/
theorem Yields.perform
    {op : E}
    {f : A op → Program E A ε α}
    (hStop : S [])
    (hNext : ∀ a,
      Yields (fun trace => S (⟨op, a⟩ :: trace))
        (fun trace => R (⟨op, a⟩ :: trace)) (f a)) :
    Yields S R (Program.perform op >>= f) :=
  ⟨hStop, hNext⟩

/- A footprint bounds the requests of every trace. -/
theorem Uses.yields
    {U : E → Prop}
    {V : α → Prop}
    (hUses : Uses U V p) :
    Yields (fun trace => ∀ x ∈ trace, U x.1)
      (fun trace a => (∀ x ∈ trace, U x.1) ∧ V a) p := by
  induction p with
  | pure a => exact ⟨by simp, by simp, hUses⟩
  | throw e => simp
  | request op k ih =>
      refine ⟨by simp, ?_⟩
      intro a
      refine Yields.mono ?_ ?_ (ih a (hUses.2 a))
      · intro trace hTrace
        exact List.forall_mem_cons.mpr ⟨hUses.1, hTrace⟩
      · intro trace value hTrace
        exact ⟨List.forall_mem_cons.mpr ⟨hUses.1, hTrace.1⟩,
          hTrace.2⟩

/- What a footprint allows holds of every trace. -/
theorem Uses.traces
    {U : E → Prop}
    {V : α → Prop}
    (hUses : Uses U V p)
    (hTrace : ∀ trace, (∀ x ∈ trace, U x.1) → S trace) :
    Traces S p :=
  Yields.mono hTrace (fun trace _ h => hTrace trace h.1)
    hUses.yields

/- A part with a footprint comes before the rest. -/
theorem Uses.traces_bind
    {U : E → Prop}
    {V : α → Prop}
    {f : α → Program E A ε β}
    (hUses : Uses U V p)
    (hStop : ∀ trace, (∀ x ∈ trace, U x.1) → S trace)
    (hSplit : ∀ trace rest, (∀ x ∈ trace, U x.1) →
      S' rest → S (trace ++ rest))
    (hNext : ∀ a, V a → Traces S' (f a)) :
    Traces S (p >>= f) := by
  apply Yields.bind hUses.yields hStop
  intro trace a hTrace
  exact Yields.mono
    (fun rest => hSplit trace rest hTrace.1)
    (fun rest _ => hSplit trace rest hTrace.1)
    (hNext a hTrace.2)

/- A property of traces speaks about every execution. -/
theorem Yields.exec
    {M : Machine E A W}
    {w w' : W}
    {steps : List (Step E A W)}
    {r : Option (Except ε α)}
    (hYields : Yields S R p)
    (hExec : Exec M w p steps w' r) :
    S (steps.map Step.exchange) ∧
      ∀ a, r = some (.ok a) →
        R (steps.map Step.exchange) a := by
  induction p generalizing w steps S R with
  | pure a =>
      cases hExec with
      | stop => exact ⟨hYields.1, by simp⟩
      | pure =>
          refine ⟨hYields.1, ?_⟩
          intro value hValue
          cases hValue
          exact hYields.2
  | throw e =>
      cases hExec with
      | stop => exact ⟨hYields, by simp⟩
      | throw => exact ⟨hYields, by simp⟩
  | request op k ih =>
      cases hExec with
      | stop => exact ⟨hYields.1, by simp⟩
      | @request _ _ _ _ a rest _ hAllowed hRest =>
          have hTail := ih a (hYields.2 a) hRest
          exact hTail

/- What a program returns is the result of an execution. -/
theorem safe_exec
    {M : Machine E A W}
    (p : Program E A ε α)
    (w : W) :
    Safe M (fun _ _ => True)
      (fun a w' => ∃ steps, Exec M w p steps w' (some (.ok a)))
      (fun _ _ => True) p w := by
  induction p generalizing w with
  | pure a => exact ⟨[], .pure⟩
  | throw e => trivial
  | request op k ih =>
      refine ⟨trivial, ?_⟩
      intro a hAllowed
      refine Safe.mono (fun _ _ h => h) ?_ (fun _ _ h => h)
        (ih a (M.next w op a))
      rintro b w' ⟨steps, hRest⟩
      exact ⟨_, .request hAllowed hRest⟩

end Rules

end Effects
