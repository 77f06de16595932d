import Mathlib.Data.List.Basic
import Mathlib.Logic.Basic

/-
  This file defines programs over an interface of requests,
  machines that answer the requests, and the two readings of
  a program on a machine: its executions and its safety.

  A program is a finite tree. Each request carries the
  continuation for every answer, so the order of the requests
  and what may happen between two of them stay visible. A
  program may also throw.

  Key definitions include:
    * `Program`
    * `Machine`
    * `Exec`
    * `Safe`
    * `Uses`
    * `Program.run`

  Key theorems include:
    * `Safe.bind_iff`
    * `Safe.bind`
    * `Safe.mono`
    * `Safe.and`
    * `Uses.bind`
    * `Uses.safe`
    * `Safe.and_uses`
    * `Safe.steps`
    * `Safe.returns`
    * `Safe.invariant`
    * `Safe.exists_exec`
    * `Exec.preserves`
    * `Program.run_exec`
-/

namespace Effects

------------------------------------------------------------
-- Programs
------------------------------------------------------------

/-
  A program issuing requests from `E`, with answers in `A`,
  that returns a value of `α` or throws an error of `ε`.
-/
inductive Program
    (E : Type)
    (A : E → Type)
    (ε α : Type) : Type where
  | pure (value : α)
  | throw (error : ε)
  | request (op : E) (resume : A op → Program E A ε α)

namespace Program

variable {E : Type} {A : E → Type} {ε α β γ : Type}

/- Sequential composition; a thrown error skips the rest. -/
def bind
    (p : Program E A ε α)
    (f : α → Program E A ε β) :
    Program E A ε β :=
  match p with
  | .pure a => f a
  | .throw e => .throw e
  | .request op k => .request op (fun a => (k a).bind f)

instance : Monad (Program E A ε) where
  pure := .pure
  bind := bind

/- Issue one request and return its answer. -/
def perform
    (op : E) :
    Program E A ε (A op) :=
  .request op .pure

@[simp] theorem pure_bind
    (a : α)
    (f : α → Program E A ε β) :
    ((Pure.pure a : Program E A ε α) >>= f) = f a :=
  rfl

@[simp] theorem throw_bind
    (e : ε)
    (f : α → Program E A ε β) :
    ((throw e : Program E A ε α) >>= f) = throw e :=
  rfl

@[simp] theorem request_bind
    (op : E)
    (k : A op → Program E A ε α)
    (f : α → Program E A ε β) :
    (request op k >>= f) =
      request op (fun a => k a >>= f) :=
  rfl

/- Composition is associative. -/
theorem bind_assoc
    (p : Program E A ε α)
    (f : α → Program E A ε β)
    (g : β → Program E A ε γ) :
    ((p >>= f) >>= g) = p >>= fun a => f a >>= g := by
  induction p with
  | pure a => rfl
  | throw e => rfl
  | request op k ih =>
      simp only [request_bind, ih]

end Program

------------------------------------------------------------
-- Machines
------------------------------------------------------------

/-
  A machine says which answers a request may get in a world
  and which world each answer leaves behind.
-/
structure Machine
    (E : Type)
    (A : E → Type)
    (W : Type) where
  allowed : W → (op : E) → A op → Prop
  next : W → (op : E) → A op → W

namespace Machine

variable {E : Type} {A : E → Type} {W : Type}

/- The machine whose answers also satisfy `C`. -/
def restrict
    (M : Machine E A W)
    (C : W → (op : E) → A op → Prop) :
    Machine E A W where
  allowed w op a := M.allowed w op a ∧ C w op a
  next := M.next

end Machine

/- One answered request, with the world it was issued in. -/
structure Step
    (E : Type)
    (A : E → Type)
    (W : Type) where
  before : W
  op : E
  answer : A op

------------------------------------------------------------
-- Executions
------------------------------------------------------------

section Executions

variable {E : Type} {A : E → Type} {ε α W : Type}

/-
  An execution of a program from a world: the answered
  requests in order, the last world, and the result. The
  result is `none` when the process stops before the program
  has finished, which may happen at every point.
-/
inductive Exec (M : Machine E A W) :
    W → Program E A ε α → List (Step E A W) → W →
      Option (Except ε α) → Prop where
  | stop {w : W} {p : Program E A ε α} :
      Exec M w p [] w none
  | pure {w : W} {a : α} :
      Exec M w (.pure a) [] w (some (.ok a))
  | throw {w : W} {e : ε} :
      Exec M w (.throw e) [] w (some (.error e))
  | request {w w' : W} {op : E}
      {k : A op → Program E A ε α} {a : A op}
      {steps : List (Step E A W)}
      {r : Option (Except ε α)}
      (hAllowed : M.allowed w op a)
      (hRest : Exec M (M.next w op a) (k a) steps w' r) :
      Exec M w (.request op k) (⟨w, op, a⟩ :: steps) w' r

/-
  A property that every request of an execution preserves
  holds before each request and in the last world.
-/
theorem Exec.preserves
    {M : Machine E A W}
    {w w' : W}
    {p : Program E A ε α}
    {steps : List (Step E A W)}
    {r : Option (Except ε α)}
    {I : W → Prop}
    (hExec : Exec M w p steps w' r)
    (hStep : ∀ s ∈ steps, I s.before →
      M.allowed s.before s.op s.answer →
        I (M.next s.before s.op s.answer))
    (hInit : I w) :
    (∀ s ∈ steps, I s.before) ∧ I w' := by
  induction hExec with
  | stop => exact ⟨by simp, hInit⟩
  | pure => exact ⟨by simp, hInit⟩
  | throw => exact ⟨by simp, hInit⟩
  | @request w w' op k a steps r hAllowed hRest ih =>
      have hNext : I (M.next w op a) :=
        hStep ⟨w, op, a⟩ (by simp) hInit hAllowed
      have hTail :=
        ih (fun s hs => hStep s (by simp [hs])) hNext
      refine ⟨?_, hTail.2⟩
      intro s hs
      rcases List.mem_cons.mp hs with hEq | hMem
      · subst hEq
        exact hInit
      · exact hTail.1 s hMem

/- An execution stops at its first request or goes on. -/
theorem Exec.of_request
    {M : Machine E A W}
    {w w' : W}
    {op : E}
    {k : A op → Program E A ε α}
    {steps : List (Step E A W)}
    {r : Option (Except ε α)}
    (hExec : Exec M w (.request op k) steps w' r) :
    (steps = [] ∧ w' = w ∧ r = none) ∨
      ∃ a rest, M.allowed w op a ∧
        steps = ⟨w, op, a⟩ :: rest ∧
        Exec M (M.next w op a) (k a) rest w' r := by
  cases hExec with
  | stop => exact .inl ⟨rfl, rfl, rfl⟩
  | request hAllowed hRest =>
      exact .inr ⟨_, _, hAllowed, rfl, hRest⟩

theorem Exec.of_pure
    {M : Machine E A W}
    {w w' : W}
    {a : α}
    {steps : List (Step E A W)}
    {r : Option (Except ε α)}
    (hExec : Exec M w (.pure a) steps w' r) :
    steps = [] ∧ w' = w ∧ (r = none ∨ r = some (.ok a)) := by
  cases hExec with
  | stop => exact ⟨rfl, rfl, .inl rfl⟩
  | pure => exact ⟨rfl, rfl, .inr rfl⟩

/- An execution on a restricted machine is an execution. -/
theorem Exec.of_restrict
    {M : Machine E A W}
    {C : W → (op : E) → A op → Prop}
    {w w' : W}
    {p : Program E A ε α}
    {steps : List (Step E A W)}
    {r : Option (Except ε α)}
    (hExec : Exec (M.restrict C) w p steps w' r) :
    Exec M w p steps w' r := by
  induction hExec with
  | stop => exact .stop
  | pure => exact .pure
  | throw => exact .throw
  | request hAllowed hRest ih => exact .request hAllowed.1 ih

/- An execution whose answers meet a restriction. -/
theorem Exec.restrict
    {M : Machine E A W}
    {C : W → (op : E) → A op → Prop}
    {w w' : W}
    {p : Program E A ε α}
    {steps : List (Step E A W)}
    {r : Option (Except ε α)}
    (hExec : Exec M w p steps w' r)
    (hAnswers : ∀ s ∈ steps, C s.before s.op s.answer) :
    Exec (M.restrict C) w p steps w' r := by
  induction hExec with
  | stop => exact .stop
  | pure => exact .pure
  | throw => exact .throw
  | @request w w' op k a steps r hAllowed hRest ih =>
      rcases List.forall_mem_cons.mp hAnswers with
        ⟨hHead, hTail⟩
      exact .request ⟨hAllowed, hHead⟩ (ih hTail)

/- An execution on a machine that allows more answers. -/
theorem Exec.mono
    {M M' : Machine E A W}
    {w w' : W}
    {p : Program E A ε α}
    {steps : List (Step E A W)}
    {r : Option (Except ε α)}
    (hNext : M.next = M'.next)
    (hAllowed : ∀ w op a,
      M.allowed w op a → M'.allowed w op a)
    (hExec : Exec M w p steps w' r) :
    Exec M' w p steps w' r := by
  induction hExec with
  | stop => exact .stop
  | pure => exact .pure
  | throw => exact .throw
  | request hAnswer hRest ih =>
      rw [hNext] at ih
      exact .request (hAllowed _ _ _ hAnswer) ih

/- Every request of an execution has an allowed answer. -/
theorem Exec.allowed
    {M : Machine E A W}
    {w w' : W}
    {p : Program E A ε α}
    {steps : List (Step E A W)}
    {r : Option (Except ε α)}
    (hExec : Exec M w p steps w' r) :
    ∀ s ∈ steps, M.allowed s.before s.op s.answer := by
  induction hExec with
  | stop => simp
  | pure => simp
  | throw => simp
  | @request w w' op k a steps r hAllowed hRest ih =>
      intro s hs
      rcases List.mem_cons.mp hs with hEq | hMem
      · subst hEq
        exact hAllowed
      · exact ih s hMem

end Executions

------------------------------------------------------------
-- Safety
------------------------------------------------------------

section Safety

variable {E : Type} {A : E → Type} {ε α β W : Type}

/-
  `Safe M P Q R p w`: whatever allowed answers `p` gets from
  the world `w` on, each request satisfies `P` in the world
  it is issued in, a returned value satisfies `Q` and a
  thrown error `R` in the world reached.
-/
def Safe
    (M : Machine E A W)
    (P : W → E → Prop)
    (Q : α → W → Prop)
    (R : ε → W → Prop) :
    Program E A ε α → W → Prop
  | .pure a, w => Q a w
  | .throw e, w => R e w
  | .request op k, w =>
      P w op ∧ ∀ a : A op, M.allowed w op a →
        Safe M P Q R (k a) (M.next w op a)

variable {M : Machine E A W}
variable {P P' : W → E → Prop}
variable {Q Q' : α → W → Prop}
variable {R R' : ε → W → Prop}
variable {p : Program E A ε α}
variable {w w' : W}

@[simp] theorem safe_pure
    {a : α} :
    Safe M P Q R (pure a : Program E A ε α) w ↔ Q a w :=
  Iff.rfl

@[simp] theorem safe_throw
    {e : ε} :
    Safe M P Q R (.throw e : Program E A ε α) w ↔ R e w :=
  Iff.rfl

@[simp] theorem safe_request
    {op : E}
    {k : A op → Program E A ε α} :
    Safe M P Q R (.request op k) w ↔
      P w op ∧ ∀ a : A op, M.allowed w op a →
        Safe M P Q R (k a) (M.next w op a) :=
  Iff.rfl

@[simp] theorem safe_perform
    {op : E}
    {Q : A op → W → Prop} :
    Safe M P Q R (Program.perform op) w ↔
      P w op ∧ ∀ a : A op, M.allowed w op a →
        Q a (M.next w op a) :=
  Iff.rfl

/- Safety of a composition is safety of its first part. -/
@[simp] theorem Safe.bind_iff
    {Q : β → W → Prop}
    {f : α → Program E A ε β} :
    Safe M P Q R (p >>= f) w ↔
      Safe M P (fun a w' => Safe M P Q R (f a) w') R p w := by
  induction p generalizing w with
  | pure a => rfl
  | throw e => rfl
  | request op k ih =>
      simp only [Program.request_bind, safe_request, ih]

/- Every part of a safety statement may be weakened. -/
theorem Safe.mono
    (hP : ∀ w op, P w op → P' w op)
    (hQ : ∀ a w, Q a w → Q' a w)
    (hR : ∀ e w, R e w → R' e w)
    (hSafe : Safe M P Q R p w) :
    Safe M P' Q' R' p w := by
  induction p generalizing w with
  | pure a => exact hQ a w hSafe
  | throw e => exact hR e w hSafe
  | request op k ih =>
      exact ⟨hP w op hSafe.1,
        fun a ha => ih a (hSafe.2 a ha)⟩

/- Every program is safe when nothing is asked of it. -/
theorem Safe.any
    (M : Machine E A W)
    (p : Program E A ε α)
    (w : W) :
    Safe M (fun _ _ => True) (fun _ _ => True)
      (fun _ _ => True) p w := by
  induction p generalizing w with
  | pure a => trivial
  | throw e => trivial
  | request op k ih => exact ⟨trivial, fun a _ => ih a _⟩

/- The composition of two safe parts. -/
theorem Safe.bind
    {Q' : β → W → Prop}
    {f : α → Program E A ε β}
    (hSafe : Safe M P Q R p w)
    (hNext : ∀ a w', Q a w' → Safe M P Q' R (f a) w') :
    Safe M P Q' R (p >>= f) w := by
  rw [Safe.bind_iff]
  exact Safe.mono (fun _ _ h => h) hNext (fun _ _ h => h)
    hSafe

/- Two safety statements of one program hold together. -/
theorem Safe.and
    (hSafe : Safe M P Q R p w)
    (hSafe' : Safe M P' Q' R' p w) :
    Safe M
      (fun w op => P w op ∧ P' w op)
      (fun a w => Q a w ∧ Q' a w)
      (fun e w => R e w ∧ R' e w) p w := by
  induction p generalizing w with
  | pure a => exact ⟨hSafe, hSafe'⟩
  | throw e => exact ⟨hSafe, hSafe'⟩
  | request op k ih =>
      exact ⟨⟨hSafe.1, hSafe'.1⟩,
        fun a ha => ih a (hSafe.2 a ha) (hSafe'.2 a ha)⟩

/- A safe program is safe on a restricted machine. -/
theorem Safe.restrict
    {C : W → (op : E) → A op → Prop}
    (hSafe : Safe M P Q R p w) :
    Safe (M.restrict C) P Q R p w := by
  induction p generalizing w with
  | pure a => exact hSafe
  | throw e => exact hSafe
  | request op k ih =>
      exact ⟨hSafe.1, fun a ha => ih a (hSafe.2 a ha.1)⟩

/- A property all allowed answers preserve is carried along. -/
theorem Safe.frame
    {I : W → Prop}
    (hStep : ∀ w op a, I w → P w op →
      M.allowed w op a → I (M.next w op a))
    (hInit : I w)
    (hSafe : Safe M P Q R p w) :
    Safe M
      (fun w op => P w op ∧ I w)
      (fun a w => Q a w ∧ I w)
      (fun e w => R e w ∧ I w) p w := by
  induction p generalizing w with
  | pure a => exact ⟨hSafe, hInit⟩
  | throw e => exact ⟨hSafe, hInit⟩
  | request op k ih =>
      refine ⟨⟨hSafe.1, hInit⟩, ?_⟩
      intro a ha
      exact ih a (hStep w op a hInit hSafe.1 ha)
        (hSafe.2 a ha)

/- Safety speaks about every request of every execution. -/
theorem Safe.steps
    {steps : List (Step E A W)}
    {r : Option (Except ε α)}
    (hSafe : Safe M P Q R p w)
    (hExec : Exec M w p steps w' r) :
    ∀ s ∈ steps, P s.before s.op := by
  induction hExec with
  | stop => simp
  | pure => simp
  | throw => simp
  | @request w w' op k a steps r hAllowed hRest ih =>
      intro s hs
      rcases List.mem_cons.mp hs with hEq | hMem
      · subst hEq
        exact hSafe.1
      · exact ih (hSafe.2 a hAllowed) s hMem

/-
  An execution of a safe program is one on a machine that
  allows the answers to its safe requests.
-/
theorem Safe.exec_mono
    {M' : Machine E A W}
    {steps : List (Step E A W)}
    {r : Option (Except ε α)}
    (hSafe : Safe M P Q R p w)
    (hNext : M.next = M'.next)
    (hAllowed : ∀ w op a, P w op →
      M.allowed w op a → M'.allowed w op a)
    (hExec : Exec M w p steps w' r) :
    Exec M' w p steps w' r := by
  induction hExec with
  | stop => exact .stop
  | pure => exact .pure
  | throw => exact .throw
  | @request w w' op k a steps r hAnswer hRest ih =>
      have hTail := ih (hSafe.2 a hAnswer)
      rw [hNext] at hTail
      exact .request (hAllowed _ _ _ hSafe.1 hAnswer) hTail

/-
  A program that is safe on a machine is safe on every machine
  it simulates, seen through the relation of the worlds.
-/
theorem Safe.simulate
    {V : Type}
    {M' : Machine E A V}
    {P' : V → E → Prop}
    {Q' : α → V → Prop}
    {R' : ε → V → Prop}
    {v : V}
    (rel : W → V → Prop)
    (hStep : ∀ w v op a, rel w v → M.allowed w op a →
      M'.allowed v op a ∧ rel (M.next w op a) (M'.next v op a))
    (hRel : rel w v)
    (hSafe : Safe M' P' Q' R' p v) :
    Safe M (fun w op => ∃ v, rel w v ∧ P' v op)
      (fun a w => ∃ v, rel w v ∧ Q' a v)
      (fun e w => ∃ v, rel w v ∧ R' e v) p w := by
  induction p generalizing w v with
  | pure a => exact ⟨v, hRel, hSafe⟩
  | throw e => exact ⟨v, hRel, hSafe⟩
  | request op k ih =>
      refine ⟨⟨v, hRel, hSafe.1⟩, ?_⟩
      intro a hAllowed
      rcases hStep w v op a hRel hAllowed with
        ⟨hAnswer, hNext⟩
      exact ih a hNext (hSafe.2 a hAnswer)

/- Safety speaks about the result of every execution. -/
theorem Safe.result
    {steps : List (Step E A W)}
    {r : Option (Except ε α)}
    (hSafe : Safe M P Q R p w)
    (hExec : Exec M w p steps w' r) :
    (∀ a, r = some (.ok a) → Q a w') ∧
      ∀ e, r = some (.error e) → R e w' := by
  induction hExec with
  | stop => simp
  | pure =>
      refine ⟨?_, by simp⟩
      rintro a ⟨⟩
      exact hSafe
  | throw =>
      refine ⟨by simp, ?_⟩
      rintro e ⟨⟩
      exact hSafe
  | @request w w' op k a steps r hAllowed hRest ih =>
      exact ih (hSafe.2 a hAllowed)

/- A finished execution of a safe program meets `Q`. -/
theorem Safe.returns
    {steps : List (Step E A W)}
    {a : α}
    (hSafe : Safe M P Q R p w)
    (hExec : Exec M w p steps w' (some (.ok a))) :
    Q a w' :=
  (hSafe.result hExec).1 a rfl

/-
  An invariant that every safe request preserves holds before
  each request and in the last world, also of an execution
  that stops early.
-/
theorem Safe.invariant
    {I : W → Prop}
    {steps : List (Step E A W)}
    {r : Option (Except ε α)}
    (hSafe : Safe M P Q R p w)
    (hExec : Exec M w p steps w' r)
    (hStep : ∀ w op a, I w → P w op →
      M.allowed w op a → I (M.next w op a))
    (hInit : I w) :
    (∀ s ∈ steps, I s.before) ∧ I w' := by
  refine hExec.preserves ?_ hInit
  intro s hMem hBefore hAllowed
  exact hStep _ _ _ hBefore (hSafe.steps hExec s hMem)
    hAllowed

/- Wherever a safe program stands, it is safe from there. -/
theorem Safe.last
    {I : W → Prop}
    {steps : List (Step E A W)}
    {r : Option (Except ε α)}
    (hP : ∀ w op, P w op → I w)
    (hQ : ∀ a w, Q a w → I w)
    (hR : ∀ e w, R e w → I w)
    (hSafe : Safe M P Q R p w)
    (hExec : Exec M w p steps w' r) :
    I w' := by
  induction hExec with
  | @stop w p =>
      cases p with
      | pure a => exact hQ a w hSafe
      | throw e => exact hR e w hSafe
      | request op k => exact hP w op hSafe.1
  | pure => exact hQ _ _ hSafe
  | throw => exact hR _ _ hSafe
  | @request w w' op k a steps r hAllowed hRest ih =>
      exact ih (hSafe.2 a hAllowed)

/-
  A safe program whose safe requests all have an answer runs
  to its end.
-/
theorem Safe.exists_exec
    (hAnswer : ∀ w op, P w op → ∃ a, M.allowed w op a)
    (hSafe : Safe M P Q R p w) :
    ∃ steps w' r, Exec M w p steps w' (some r) := by
  induction p generalizing w with
  | pure a => exact ⟨[], w, _, .pure⟩
  | throw e => exact ⟨[], w, _, .throw⟩
  | request op k ih =>
      rcases hAnswer w op hSafe.1 with ⟨a, hAllowed⟩
      rcases ih a (hSafe.2 a hAllowed) with
        ⟨steps, w', r, hExec⟩
      exact ⟨_, w', r, .request hAllowed hExec⟩

/- Stopped anywhere, such a program can be run to its end. -/
theorem Safe.completes
    {steps : List (Step E A W)}
    {r : Option (Except ε α)}
    (hAnswer : ∀ w op, P w op → ∃ a, M.allowed w op a)
    (hSafe : Safe M P Q R p w)
    (hExec : Exec M w p steps w' r) :
    ∃ more w'' r',
      Exec M w p (steps ++ more) w'' (some r') := by
  induction hExec with
  | stop =>
      rcases hSafe.exists_exec hAnswer with
        ⟨more, w'', r', hDone⟩
      exact ⟨more, w'', r', hDone⟩
  | pure => exact ⟨[], _, _, .pure⟩
  | throw => exact ⟨[], _, _, .throw⟩
  | @request w w' op k a steps r hAllowed hRest ih =>
      rcases ih (hSafe.2 a hAllowed) with
        ⟨more, w'', r', hDone⟩
      exact ⟨more, w'', r', .request hAllowed hDone⟩

end Safety

------------------------------------------------------------
-- Footprints
------------------------------------------------------------

section Footprints

variable {E : Type} {A : E → Type} {ε α β W : Type}

/-
  `Uses S V p`: every request `p` can issue lies in `S` and
  every value it can return in `V`, whatever the answers.
-/
def Uses
    (S : E → Prop)
    (V : α → Prop) :
    Program E A ε α → Prop
  | .pure a => V a
  | .throw _ => True
  | .request op k => S op ∧ ∀ a : A op, Uses S V (k a)

variable {S S' : E → Prop}
variable {V V' : α → Prop}
variable {p : Program E A ε α}

@[simp] theorem uses_pure
    {a : α} :
    Uses S V (pure a : Program E A ε α) ↔ V a :=
  Iff.rfl

@[simp] theorem uses_throw
    {e : ε} :
    Uses S V (.throw e : Program E A ε α) ↔ True :=
  Iff.rfl

@[simp] theorem uses_request
    {op : E}
    {k : A op → Program E A ε α} :
    Uses S V (.request op k) ↔
      S op ∧ ∀ a : A op, Uses S V (k a) :=
  Iff.rfl

@[simp] theorem uses_perform
    {op : E}
    {V : A op → Prop} :
    Uses S V (Program.perform op : Program E A ε (A op)) ↔
      S op ∧ ∀ a : A op, V a :=
  Iff.rfl

@[simp] theorem Uses.bind_iff
    {V : β → Prop}
    {f : α → Program E A ε β} :
    Uses S V (p >>= f) ↔
      Uses S (fun a => Uses S V (f a)) p := by
  induction p with
  | pure a => rfl
  | throw e => rfl
  | request op k ih =>
      simp only [Program.request_bind, uses_request, ih]

theorem Uses.mono
    (hS : ∀ op, S op → S' op)
    (hV : ∀ a, V a → V' a)
    (hUses : Uses S V p) :
    Uses S' V' p := by
  induction p with
  | pure a => exact hV a hUses
  | throw e => trivial
  | request op k ih =>
      exact ⟨hS op hUses.1, fun a => ih a (hUses.2 a)⟩

/- Every program stays within all requests. -/
theorem Uses.any
    (p : Program E A ε α) :
    Uses (fun _ => True) (fun _ => True) p := by
  induction p with
  | pure a => trivial
  | throw e => trivial
  | request op k ih => exact ⟨trivial, ih⟩

/- The footprint of a composition, part by part. -/
theorem Uses.bind
    {V' : β → Prop}
    {f : α → Program E A ε β}
    (hUses : Uses S V p)
    (hNext : ∀ a, V a → Uses S V' (f a)) :
    Uses S V' (p >>= f) := by
  rw [Uses.bind_iff]
  exact Uses.mono (fun _ h => h) hNext hUses

/- Two footprints of one program hold together. -/
theorem Uses.and
    (hUses : Uses S V p)
    (hUses' : Uses S' V' p) :
    Uses (fun op => S op ∧ S' op)
      (fun a => V a ∧ V' a) p := by
  induction p with
  | pure a => exact ⟨hUses, hUses'⟩
  | throw e => trivial
  | request op k ih =>
      exact ⟨⟨hUses.1, hUses'.1⟩,
        fun a => ih a (hUses.2 a) (hUses'.2 a)⟩

/-
  A program whose footprint keeps a property of worlds and
  satisfies the request condition under it is safe.
-/
theorem Uses.safe
    {M : Machine E A W}
    {P : W → E → Prop}
    {I : W → Prop}
    {w : W}
    (hUses : Uses S V p)
    (hOp : ∀ w op, I w → S op → P w op)
    (hStep : ∀ w op a, I w → S op →
      M.allowed w op a → I (M.next w op a))
    (hInit : I w) :
    Safe M P (fun a w => V a ∧ I w) (fun _ w => I w) p w := by
  induction p generalizing w with
  | pure a => exact ⟨hUses, hInit⟩
  | throw e => exact hInit
  | request op k ih =>
      refine ⟨hOp w op hInit hUses.1, ?_⟩
      intro a ha
      exact ih a (hUses.2 a)
        (hStep w op a hInit hUses.1 ha)

/- A footprint speaks about every execution. -/
theorem Uses.exec
    {M : Machine E A W}
    {w w' : W}
    {steps : List (Step E A W)}
    {r : Option (Except ε α)}
    (hUses : Uses S V p)
    (hExec : Exec M w p steps w' r) :
    (∀ s ∈ steps, S s.op) ∧
      ∀ a, r = some (.ok a) → V a := by
  have hSafe :
      Safe M (fun _ op => S op) (fun a _ => V a ∧ True)
        (fun _ _ => True) p w :=
    hUses.safe (I := fun _ => True) (fun _ _ _ hOp => hOp)
      (fun _ _ _ _ _ _ => trivial) trivial
  exact ⟨hSafe.steps hExec,
    fun a hReturned => ((hSafe.result hExec).1 a hReturned).1⟩

/- A footprint adds to what is known of a safe program. -/
theorem Safe.and_uses
    {M : Machine E A W}
    {P : W → E → Prop}
    {Q : α → W → Prop}
    {R : ε → W → Prop}
    {w : W}
    (hSafe : Safe M P Q R p w)
    (hUses : Uses S V p) :
    Safe M (fun w op => P w op ∧ S op)
      (fun a w => Q a w ∧ V a) R p w := by
  induction p generalizing w with
  | pure a => exact ⟨hSafe, hUses⟩
  | throw e => exact hSafe
  | request op k ih =>
      exact ⟨⟨hSafe.1, hUses.1⟩,
        fun a ha => ih a (hSafe.2 a ha) (hUses.2 a)⟩

end Footprints

------------------------------------------------------------
-- Deterministic Runs
------------------------------------------------------------

namespace Program

variable {E : Type} {A : E → Type} {ε α W : Type}

/-
  Run a program with a fixed way to answer requests. The run
  stops when a request is left unanswered.
-/
def run
    (M : Machine E A W)
    (answer : W → (op : E) → Option (A op)) :
    Program E A ε α → W →
      List (Step E A W) × W × Option (Except ε α)
  | .pure a, w => ([], w, some (.ok a))
  | .throw e, w => ([], w, some (.error e))
  | .request op k, w =>
      match answer w op with
      | none => ([], w, none)
      | some a =>
          let rest := run M answer (k a) (M.next w op a)
          (⟨w, op, a⟩ :: rest.1, rest.2)

/-
  A run with allowed answers is an execution, also on another
  machine that goes on from an answer in the same way.
-/
theorem run_exec_of_next
    {M M' : Machine E A W}
    {answer : W → (op : E) → Option (A op)}
    (hNext : M.next = M'.next)
    (hAnswer : ∀ w op a,
      answer w op = some a → M'.allowed w op a)
    (p : Program E A ε α)
    (w : W) :
    Exec M' w p
      (p.run M answer w).1
      (p.run M answer w).2.1
      (p.run M answer w).2.2 := by
  induction p generalizing w with
  | pure a => exact .pure
  | throw e => exact .throw
  | request op k ih =>
      cases hCase : answer w op with
      | none =>
          simp only [run, hCase]
          exact .stop
      | some a =>
          simp only [run, hCase, hNext]
          exact .request (hAnswer w op a hCase)
            (ih a (M'.next w op a))

theorem run_exec
    {M : Machine E A W}
    {answer : W → (op : E) → Option (A op)}
    (hAnswer : ∀ w op a,
      answer w op = some a → M.allowed w op a)
    (p : Program E A ε α)
    (w : W) :
    Exec M w p
      (p.run M answer w).1
      (p.run M answer w).2.1
      (p.run M answer w).2.2 :=
  run_exec_of_next rfl hAnswer p w

end Program

end Effects
