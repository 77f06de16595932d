import Mathlib.Logic.Function.Basic
import RainEngine.Effects.Program

/-
  This file defines the interleavings of programs that take
  turns at one machine, request by request, and a notion of
  safety of a program that other programs interfere with.

  A program is safe amid others if its assertions survive all
  that the others may do to the world between two of its
  requests. Its own requests are recorded in a note of its
  own, which the others leave alone.

  Key definitions include:
    * `Interleaved`
    * `Interference`
    * `SafeAmid`
    * `interleave`

  Key theorems include:
    * `SafeAmid.bind`
    * `Uses.safeAmid`
    * `Interleaved.safe`
    * `interleave_interleaved`
-/

namespace Effects

------------------------------------------------------------
-- Interleavings
------------------------------------------------------------

section Interleavings

variable {ι : Type} [DecidableEq ι]
variable {E : Type} {A : E → Type} {ε α W V : Type}

/-
  Processes that take turns: at each step some process has
  its next request answered. All may stop at every point.
-/
inductive Interleaved (M : Machine E A W) :
    W → (ι → Program E A ε α) → List (ι × Step E A W) →
      W → Prop where
  | stop {w : W} {processes : ι → Program E A ε α} :
      Interleaved M w processes [] w
  | step {w w' : W} {processes : ι → Program E A ε α}
      {i : ι} {op : E} {k : A op → Program E A ε α}
      {a : A op} {steps : List (ι × Step E A W)}
      (hTurn : processes i = .request op k)
      (hAllowed : M.allowed w op a)
      (hRest : Interleaved M (M.next w op a)
        (Function.update processes i (k a)) steps w') :
      Interleaved M w processes
        ((i, ⟨w, op, a⟩) :: steps) w'

/- The steps of one process. -/
def ownSteps
    (i : ι)
    (steps : List (ι × Step E A W)) :
    List (Step E A W) :=
  steps.filterMap fun s =>
    if s.1 = i then some s.2 else none

/- What a process has noted after some of its steps. -/
def noteOf
    (tick : V → (op : E) → A op → V)
    (note : V)
    (steps : List (Step E A W)) :
    V :=
  steps.foldl (fun note s => tick note s.op s.answer) note

/- An interleaving whose answers satisfy `C`. -/
theorem Interleaved.restrict
    {M : Machine E A W}
    {C : W → (op : E) → A op → Prop}
    {processes : ι → Program E A ε α}
    {steps : List (ι × Step E A W)}
    {w w' : W}
    (hRun : Interleaved M w processes steps w')
    (hAnswers : ∀ s ∈ steps,
      C s.2.before s.2.op s.2.answer) :
    Interleaved (M.restrict C) w processes steps w' := by
  induction hRun with
  | stop => exact .stop
  | step hTurn hAllowed hRest ih =>
      apply Interleaved.step hTurn
      · exact ⟨hAllowed, hAnswers _ List.mem_cons_self⟩
      · exact ih fun s hMem => hAnswers s (by simp [hMem])

end Interleavings

------------------------------------------------------------
-- Safety Amid Others
------------------------------------------------------------

section Safety

variable {E : Type} {A : E → Type} {ε α β W V : Type}

/- What others may do, as each request of the machine does. -/
structure Interference
    (M : Machine E A W)
    (rely : W → W → Prop) : Prop where
  refl : ∀ w, rely w w
  trans : ∀ {w w' w''},
    rely w w' → rely w' w'' → rely w w''
  next : ∀ {w op a},
    M.allowed w op a → rely w (M.next w op a)

/- So the world has changed from every request to the end. -/
theorem Interleaved.amid
    {ι : Type} [DecidableEq ι]
    {M : Machine E A W}
    {rely : W → W → Prop}
    {processes : ι → Program E A ε α}
    {steps : List (ι × Step E A W)}
    {w w' : W}
    (hOthers : Interference M rely)
    (hRun : Interleaved M w processes steps w') :
    rely w w' ∧ ∀ s ∈ steps, rely s.2.before w' := by
  induction hRun with
  | stop => exact ⟨hOthers.refl _, by simp⟩
  | step hTurn hAllowed hRest ih =>
      have hAll := hOthers.trans (hOthers.next hAllowed) ih.1
      refine ⟨hAll, ?_⟩
      intro s hMem
      rcases List.mem_cons.mp hMem with hHead | hLater
      · rw [hHead]
        exact hAll
      · exact ih.2 s hLater

/-
  Safety where others change the world before each request:
  a request satisfies `P` with what the process has noted, a
  returned value `Q` and a thrown error `R`.
-/
def SafeAmid
    (M : Machine E A W)
    (rely : W → W → Prop)
    (tick : V → (op : E) → A op → V)
    (P : V → W → E → Prop)
    (Q : α → V → W → Prop)
    (R : ε → V → W → Prop) :
    Program E A ε α → V → W → Prop
  | .pure a, note, w => ∀ w', rely w w' → Q a note w'
  | .throw e, note, w => ∀ w', rely w w' → R e note w'
  | .request op k, note, w => ∀ w', rely w w' →
      P note w' op ∧ ∀ a : A op, M.allowed w' op a →
        SafeAmid M rely tick P Q R (k a) (tick note op a)
          (M.next w' op a)

variable {M : Machine E A W}
variable {rely : W → W → Prop}
variable {tick : V → (op : E) → A op → V}
variable {P P' : V → W → E → Prop}
variable {Q Q' : α → V → W → Prop}
variable {R R' : ε → V → W → Prop}
variable {p : Program E A ε α}
variable {note : V}
variable {w w' : W}

theorem SafeAmid.mono
    (hP : ∀ note w op, P note w op → P' note w op)
    (hQ : ∀ a note w, Q a note w → Q' a note w)
    (hR : ∀ e note w, R e note w → R' e note w)
    (hSafe : SafeAmid M rely tick P Q R p note w) :
    SafeAmid M rely tick P' Q' R' p note w := by
  induction p generalizing note w with
  | pure a => exact fun w' h => hQ a note w' (hSafe w' h)
  | throw e => exact fun w' h => hR e note w' (hSafe w' h)
  | request op k ih =>
      intro w' hRely
      rcases hSafe w' hRely with ⟨hRequest, hRest⟩
      exact ⟨hP note w' op hRequest,
        fun a hAllowed => ih a (hRest a hAllowed)⟩

/- Safety survives what others do. -/
theorem SafeAmid.amid
    (hOthers : Interference M rely)
    (hSafe : SafeAmid M rely tick P Q R p note w)
    (hRely : rely w w') :
    SafeAmid M rely tick P Q R p note w' := by
  cases p with
  | pure a =>
      intro w'' hLater
      exact hSafe w'' (hOthers.trans hRely hLater)
  | throw e =>
      intro w'' hLater
      exact hSafe w'' (hOthers.trans hRely hLater)
  | request op k =>
      intro w'' hLater
      exact hSafe w'' (hOthers.trans hRely hLater)

theorem SafeAmid.pure
    {a : α}
    (hReturn : ∀ w', rely w w' → Q a note w') :
    SafeAmid M rely tick P Q R
      (Pure.pure a : Program E A ε α) note w :=
  hReturn

/- One request: the others act before it and after it. -/
theorem SafeAmid.perform
    {op : E}
    {Q : A op → V → W → Prop}
    (hRequest : ∀ w', rely w w' → P note w' op)
    (hAnswer : ∀ w', rely w w' → ∀ a, M.allowed w' op a →
      ∀ w'', rely (M.next w' op a) w'' →
        Q a (tick note op a) w'') :
    SafeAmid M rely tick P Q R
      (Program.perform op : Program E A ε (A op)) note w :=
  fun w' hRely => ⟨hRequest w' hRely, hAnswer w' hRely⟩

theorem SafeAmid.bind
    {Q : β → V → W → Prop}
    {J : α → V → W → Prop}
    {f : α → Program E A ε β}
    (hOthers : Interference M rely)
    (hFirst : SafeAmid M rely tick P J R p note w)
    (hRest : ∀ a note w, J a note w →
      SafeAmid M rely tick P Q R (f a) note w) :
    SafeAmid M rely tick P Q R (p >>= f) note w := by
  induction p generalizing note w with
  | pure a =>
      exact hRest a note w (hFirst w (hOthers.refl w))
  | throw e => exact hFirst
  | request op k ih =>
      intro w' hRely
      rcases hFirst w' hRely with ⟨hRequest, hNext⟩
      exact ⟨hRequest,
        fun a hAllowed => ih a (hNext a hAllowed)⟩

/-
  A program keeps what neither its own requests nor the
  others put in doubt.
-/
theorem Uses.safeAmid
    {S : E → Prop}
    {Val : α → Prop}
    {K : V → W → Prop}
    (hOthers : Interference M rely)
    (hUses : Uses S Val p)
    (hRequest : ∀ note w op,
      K note w → S op → P note w op)
    (hTick : ∀ note w op a, K note w → S op →
      K (tick note op a) w)
    (hStable : ∀ note w w',
      K note w → rely w w' → K note w')
    (hInit : K note w) :
    SafeAmid M rely tick P
      (fun a note w => Val a ∧ K note w)
      (fun _ note w => K note w) p note w := by
  induction p generalizing note w with
  | pure a =>
      exact fun w' hRely =>
        ⟨hUses, hStable _ _ _ hInit hRely⟩
  | throw e =>
      exact fun w' hRely => hStable _ _ _ hInit hRely
  | request op k ih =>
      intro w' hRely
      have hNow := hStable _ _ _ hInit hRely
      refine ⟨hRequest _ _ _ hNow hUses.1, ?_⟩
      intro a hAllowed
      exact ih a (hUses.2 a) (hStable _ _ _
        (hTick _ _ _ a hNow hUses.1)
        (hOthers.next hAllowed))

end Safety

------------------------------------------------------------
-- Safe Processes
------------------------------------------------------------

section Processes

variable {ι : Type} [DecidableEq ι]
variable {E : Type} {A : E → Type} {ε α W V : Type}
variable {M : Machine E A W}
variable {rely : W → W → Prop}
variable {tick : V → (op : E) → A op → V}
variable {P : ι → V → W → E → Prop}
variable {Q : ι → α → V → W → Prop}
variable {R : ι → ε → V → W → Prop}

/-
  Processes that are each safe amid others are safe in every
  interleaving: each request satisfies the assertion of its
  process, with what the process has noted before.
-/
theorem Interleaved.safe
    {processes : ι → Program E A ε α}
    {notes : ι → V}
    {steps : List (ι × Step E A W)}
    {w w' : W}
    (hOthers : Interference M rely)
    (hSafe : ∀ i, SafeAmid M rely tick (P i) (Q i) (R i)
      (processes i) (notes i) w)
    (hRun : Interleaved M w processes steps w') :
    ∀ early i s late, steps = early ++ (i, s) :: late →
      P i (noteOf tick (notes i) (ownSteps i early))
        s.before s.op := by
  induction hRun generalizing notes with
  | stop =>
      intro early i s late hSteps
      cases early <;> cases hSteps
  | @step w w' processes j op k a steps hTurn hAllowed hRest
      ih =>
      have hOwn := hSafe j
      rw [hTurn] at hOwn
      rcases hOwn w (hOthers.refl w) with ⟨hRequest, hNext⟩
      intro early i s late hSteps
      cases early with
      | nil =>
          cases hSteps
          exact hRequest
      | cons first early =>
          rw [List.cons_append, List.cons.injEq] at hSteps
          rcases hSteps with ⟨hFirst, hSteps⟩
          subst hFirst
          have hNotes : ∀ i, SafeAmid M rely tick (P i) (Q i)
              (R i) (Function.update processes j (k a) i)
              (Function.update notes j (tick (notes j) op a) i)
              (M.next w op a) := by
            intro i
            by_cases hSame : i = j
            · subst hSame
              rw [Function.update_self, Function.update_self]
              exact hNext a hAllowed
            · rw [Function.update_of_ne hSame,
                Function.update_of_ne hSame]
              exact (hSafe i).amid hOthers
                (hOthers.next hAllowed)
          have hLater := ih hNotes early i s late hSteps
          by_cases hSame : j = i
          · subst hSame
            rw [Function.update_self] at hLater
            simpa [ownSteps, noteOf] using hLater
          · rw [Function.update_of_ne (Ne.symm hSame)]
              at hLater
            simpa [ownSteps, noteOf, hSame] using hLater

end Processes

------------------------------------------------------------
-- Deterministic Interleavings
------------------------------------------------------------

section Schedules

variable {ι : Type} [DecidableEq ι]
variable {E : Type} {A : E → Type} {ε α W : Type}

/-
  Run processes in the order of a schedule, with a fixed way
  to answer their requests. A turn is lost on a process that
  has ended or whose request is left unanswered.
-/
def interleave
    (M : Machine E A W)
    (answer : ι → W → (op : E) → Option (A op)) :
    List ι → (ι → Program E A ε α) → W →
      List (ι × Step E A W) × W
  | [], _, w => ([], w)
  | i :: schedule, processes, w =>
      match processes i with
      | .request op k =>
          match answer i w op with
          | some a =>
              let rest := interleave M answer schedule
                (Function.update processes i (k a))
                (M.next w op a)
              ((i, ⟨w, op, a⟩) :: rest.1, rest.2)
          | none => interleave M answer schedule processes w
      | _ => interleave M answer schedule processes w

theorem interleave_interleaved
    {M : Machine E A W}
    {answer : ι → W → (op : E) → Option (A op)}
    (hAnswer : ∀ i w op a,
      answer i w op = some a → M.allowed w op a)
    (schedule : List ι)
    (processes : ι → Program E A ε α)
    (w : W) :
    Interleaved M w processes
      (interleave M answer schedule processes w).1
      (interleave M answer schedule processes w).2 := by
  induction schedule generalizing processes w with
  | nil => exact .stop
  | cons i schedule ih =>
      cases hTurn : processes i with
      | pure _ =>
          simp only [interleave, hTurn]
          exact ih processes w
      | throw _ =>
          simp only [interleave, hTurn]
          exact ih processes w
      | request op k =>
          cases hCase : answer i w op with
          | none =>
              simp only [interleave, hTurn, hCase]
              exact ih processes w
          | some a =>
              simp only [interleave, hTurn, hCase]
              exact .step hTurn (hAnswer i w op a hCase)
                (ih _ _)

end Schedules

end Effects
