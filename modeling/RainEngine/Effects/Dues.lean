import RainEngine.Effects.Failures
import RainEngine.Effects.Traces

/-
  This file is about programs that write down what they are
  answered. An answer leaves entries due, and while any are
  due nothing is requested but to store the first of them.

  Key definitions include:
    * `Dues`
    * `Dues.Owes`
    * `Dues.Honest`

  Key theorems include:
    * `Dues.Owes.bind`
    * `Dues.Owes.of_uses`
    * `Dues.Owes.of_leads`
    * `Dues.Owes.exec`
    * `Dues.Honest.paid`
    * `Dues.Honest.ahead`
-/

namespace Effects

variable {E R : Type} {A : E → Type} {ε α β W : Type}

/-
  What an answer leaves due, the entry a request stores, and
  whether it has been stored. Storing leaves nothing due.
-/
structure Dues (A : E → Type) (R : Type) where
  owed : Exchange A → List R
  entry : E → Option R
  isStored : Exchange A → Bool
  owed_of_entry : ∀ x r, entry x.1 = some r → owed x = []

namespace Dues

variable {D : Dues A R}

/- The entry that a request has stored. -/
def paid (D : Dues A R) (x : Exchange A) : List R :=
  if D.isStored x then (D.entry x.1).toList else []

/- What is due after an exchange. -/
def due
    (D : Dues A R)
    (rest : List R)
    (x : Exchange A) :
    List R :=
  match D.entry x.1 with
  | none => D.owed x
  | some _ => if D.isStored x then rest.tail else rest

/- The request may be issued while `rest` is due. -/
def Permits
    (D : Dues A R)
    (rest : List R)
    (op : E) : Prop :=
  match D.entry op with
  | none => rest = []
  | some r => rest.head? = some r

/- The program never requests what is not permitted. -/
def Owes
    (D : Dues A R)
    (Q : List R → α → Prop) :
    List R → Program E A ε α → Prop
  | rest, .pure a => Q rest a
  | _, .throw _ => True
  | rest, .request op k =>
      D.Permits rest op ∧
        ∀ a : A op, Owes D Q (D.due rest ⟨op, a⟩) (k a)

/- The trace never holds what is not permitted. -/
def Honest
    (D : Dues A R) :
    List R → List (Exchange A) → Prop
  | _, [] => True
  | rest, x :: trace =>
      D.Permits rest x.1 ∧ Honest D (D.due rest x) trace

/- What is due at the end of a trace. -/
def left
    (D : Dues A R)
    (rest : List R)
    (trace : List (Exchange A)) :
    List R :=
  trace.foldl D.due rest

/- The request stores nothing, and no answer leaves a due. -/
structure IsFree (D : Dues A R) (op : E) : Prop where
  entry : D.entry op = none
  owed : ∀ a : A op, D.owed ⟨op, a⟩ = []

------------------------------------------------------------
-- Programs
------------------------------------------------------------

section Programs

variable {Q : List R → α → Prop}
variable {rest : List R}
variable {p : Program E A ε α}

theorem IsFree.permits
    {op : E}
    (hFree : D.IsFree op) :
    D.Permits [] op := by
  unfold Permits
  rw [hFree.entry]

theorem IsFree.due
    {op : E}
    {a : A op}
    (hFree : D.IsFree op) :
    D.due rest ⟨op, a⟩ = [] := by
  unfold Dues.due
  rw [hFree.entry]
  exact hFree.owed a

theorem Owes.bind
    {Q : List R → β → Prop}
    {P : List R → α → Prop}
    {f : α → Program E A ε β}
    (hOwes : D.Owes P rest p)
    (hNext : ∀ rest a, P rest a → D.Owes Q rest (f a)) :
    D.Owes Q rest (p >>= f) := by
  induction p generalizing rest with
  | pure a => exact hNext rest a hOwes
  | throw e => trivial
  | request op k ih =>
      exact ⟨hOwes.1, fun a => ih a (hOwes.2 a)⟩

/- One request comes before the rest. -/
theorem Owes.perform
    {op : E}
    {f : A op → Program E A ε α}
    (hPermits : D.Permits rest op)
    (hNext : ∀ a, D.Owes Q (D.due rest ⟨op, a⟩) (f a)) :
    D.Owes Q rest (Program.perform op >>= f) :=
  ⟨hPermits, hNext⟩

/- A part with free requests leaves nothing due. -/
theorem Owes.of_uses
    {S : E → Prop}
    {V : α → Prop}
    (hFree : ∀ op, S op → D.IsFree op)
    (hQ : ∀ a, V a → Q [] a)
    (hUses : Uses S V p) :
    D.Owes Q [] p := by
  induction p with
  | pure a => exact hQ a hUses
  | throw e => trivial
  | request op k ih =>
      refine ⟨(hFree op hUses.1).permits, ?_⟩
      intro a
      rw [(hFree op hUses.1).due]
      exact ih a (hUses.2 a)

/- The program that free requests lead to decides. -/
theorem Owes.of_leads
    {S : E → Prop}
    {T : Program E A ε α → Prop}
    (hLeads : Leads S T p)
    (hFree : ∀ op, S op → D.IsFree op)
    (hQ : ∀ a, Q [] a)
    (hTail : ∀ p, T p → D.Owes Q [] p) :
    D.Owes Q [] p := by
  induction hLeads with
  | arrived hArrived => exact hTail _ hArrived
  | pure => exact hQ _
  | throw => trivial
  | @request op k hOp hRest ih =>
      refine ⟨(hFree op hOp).permits, ?_⟩
      intro a
      rw [(hFree op hOp).due]
      exact ih a

theorem Owes.exec
    {M : Machine E A W}
    {w w' : W}
    {steps : List (Step E A W)}
    {r : Option (Except ε α)}
    (hOwes : D.Owes Q rest p)
    (hExec : Exec M w p steps w' r) :
    D.Honest rest (steps.map Step.exchange) ∧
      ∀ a, r = some (.ok a) →
        Q (D.left rest (steps.map Step.exchange)) a := by
  induction p generalizing w steps rest with
  | pure a =>
      cases hExec with
      | stop => exact ⟨trivial, nofun⟩
      | pure =>
          refine ⟨trivial, ?_⟩
          intro b hReturned
          cases hReturned
          exact hOwes
  | throw e =>
      cases hExec with
      | stop => exact ⟨trivial, nofun⟩
      | throw => exact ⟨trivial, nofun⟩
  | request op k ih =>
      cases hExec with
      | stop => exact ⟨trivial, nofun⟩
      | @request _ _ _ _ a _ _ hAllowed hRest =>
          have hTail := ih a (hOwes.2 a) hRest
          exact ⟨⟨hOwes.1, hTail.1⟩, hTail.2⟩

end Programs

------------------------------------------------------------
-- Traces
------------------------------------------------------------

section Traces

variable {rest : List R}
variable {early late trace : List (Exchange A)}

theorem Honest.of_append
    (hHonest : D.Honest rest (early ++ late)) :
    D.Honest rest early ∧
      D.Honest (D.left rest early) late := by
  induction early generalizing rest with
  | nil => exact ⟨trivial, hHonest⟩
  | cons x early ih =>
      have hTail := ih hHonest.2
      exact ⟨⟨hHonest.1, hTail.1⟩, hTail.2⟩

/- An entry that is stored was the first one due. -/
theorem Permits.paid_due
    {x : Exchange A}
    (hPermits : D.Permits rest x.1) :
    D.paid x ++ D.due rest x = rest ++ D.owed x := by
  unfold Permits at hPermits
  unfold Dues.paid Dues.due
  cases hEntry : D.entry x.1 with
  | none =>
      rw [hEntry] at hPermits
      have hNone : rest = [] := hPermits
      simp [hNone]
  | some r =>
      rw [hEntry] at hPermits
      have hHead : rest.head? = some r := hPermits
      rcases List.head?_eq_some_iff.mp hHead with
        ⟨more, rfl⟩
      rw [D.owed_of_entry x r hEntry]
      cases D.isStored x <;> simp

/-
  What has been stored, with what is left due, is what was due
  and what the answers have left due, in order.
-/
theorem Honest.paid
    (hHonest : D.Honest rest trace) :
    trace.flatMap D.paid ++ D.left rest trace =
      rest ++ trace.flatMap D.owed := by
  induction trace generalizing rest with
  | nil => simp [left]
  | cons x trace ih =>
      calc (x :: trace).flatMap D.paid ++
            D.left rest (x :: trace)
          = D.paid x ++ (trace.flatMap D.paid ++
              D.left (D.due rest x) trace) := by
            rw [List.flatMap_cons, List.append_assoc]
            rfl
        _ = D.paid x ++ D.due rest x ++
              trace.flatMap D.owed := by
            rw [ih hHonest.2, List.append_assoc]
        _ = rest ++ (x :: trace).flatMap D.owed := by
            rw [hHonest.1.paid_due, List.append_assoc,
              List.flatMap_cons]

/- All that was due is stored before anything else is asked. -/
theorem Honest.ahead
    {x : Exchange A}
    (hHonest : D.Honest rest (early ++ x :: late))
    (hOther : D.entry x.1 = none) :
    early.flatMap D.paid = rest ++ early.flatMap D.owed := by
  rcases hHonest.of_append with ⟨hEarly, hPermits, _⟩
  unfold Permits at hPermits
  rw [hOther] at hPermits
  have hNone : D.left rest early = [] := hPermits
  have hPaid := hEarly.paid
  rw [hNone, List.append_nil] at hPaid
  exact hPaid

end Traces

end Dues

end Effects
