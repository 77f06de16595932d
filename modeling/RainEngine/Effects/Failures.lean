import RainEngine.Effects.Program

/-
  This file defines how a program takes the answers that
  report a failure, and programs that go on as one of a set
  of programs.

  Key definitions include:
    * `Strict`
    * `Leads`

  Key theorems include:
    * `Strict.bind`
    * `Strict.returns_iff`
    * `Leads.bind`
    * `Leads.exec`
    * `Leads.safe`
-/

namespace Effects

variable {E : Type} {A : E → Type} {ε α β W : Type}

------------------------------------------------------------
-- Strict Programs
------------------------------------------------------------

/-
  A program that throws at the first answer in `F` and at no
  other point.
-/
def Strict
    (F : (op : E) → A op → Prop) :
    Program E A ε α → Prop
  | .pure _ => True
  | .throw _ => False
  | .request op k =>
      ∀ a : A op,
        (F op a → ∃ e, k a = .throw e) ∧
          (¬F op a → Strict F (k a))

variable {F : (op : E) → A op → Prop}
variable {p : Program E A ε α}

@[simp] theorem strict_pure
    {a : α} :
    Strict F (pure a : Program E A ε α) :=
  trivial

/- A request whose answers never fail. -/
theorem strict_perform
    {op : E}
    (hNever : ∀ a : A op, ¬F op a) :
    Strict F (Program.perform op : Program E A ε (A op)) :=
  fun a => ⟨fun hFails => absurd hFails (hNever a),
    fun _ => trivial⟩

/- The composition of two strict parts. -/
theorem Strict.bind
    {f : α → Program E A ε β}
    (hStrict : Strict F p)
    (hNext : ∀ a, Strict F (f a)) :
    Strict F (p >>= f) := by
  induction p with
  | pure a => exact hNext a
  | throw e => exact hStrict.elim
  | request op k ih =>
      intro a
      refine ⟨?_, ?_⟩
      · intro hFails
        rcases (hStrict a).1 hFails with ⟨e, hThrow⟩
        refine ⟨e, ?_⟩
        change (k a >>= f) = _
        rw [hThrow]
        rfl
      · intro hHolds
        exact ih a ((hStrict a).2 hHolds)

/- A strict program returns when no answer is in `F`. -/
theorem Strict.returns_iff
    {M : Machine E A W}
    {w w' : W}
    {steps : List (Step E A W)}
    {r : Except ε α}
    (hStrict : Strict F p)
    (hExec : Exec M w p steps w' (some r)) :
    (∃ a, r = .ok a) ↔ ∀ s ∈ steps, ¬F s.op s.answer := by
  induction p generalizing w steps with
  | pure a =>
      cases hExec with
      | pure => simp
  | throw e => exact hStrict.elim
  | request op k ih =>
      cases hExec with
      | @request _ _ _ _ a rest _ hAllowed hRest =>
          by_cases hFails : F op a
          · rcases (hStrict a).1 hFails with ⟨e, hThrow⟩
            rw [hThrow] at hRest
            cases hRest with
            | throw => simp [hFails]
          · rw [ih a ((hStrict a).2 hFails) hRest]
            simp [hFails]

------------------------------------------------------------
-- Continuing As Another Program
------------------------------------------------------------

/-
  A program that issues requests of `S` until it returns,
  throws, or goes on as a program of `T`.
-/
inductive Leads
    (S : E → Prop)
    (T : Program E A ε α → Prop) :
    Program E A ε α → Prop where
  | arrived {p : Program E A ε α} (hTail : T p) :
      Leads S T p
  | pure {a : α} : Leads S T (.pure a)
  | throw {e : ε} : Leads S T (.throw e)
  | request {op : E} {k : A op → Program E A ε α}
      (hOp : S op) (hRest : ∀ a, Leads S T (k a)) :
      Leads S T (.request op k)

variable {S : E → Prop}
variable {V : α → Prop}

/- A part that stays in `S` comes before the rest. -/
theorem Leads.bind
    {T : Program E A ε β → Prop}
    {f : α → Program E A ε β}
    (hUses : Uses S V p)
    (hNext : ∀ a, V a → Leads S T (f a)) :
    Leads S T (p >>= f) := by
  induction p with
  | pure a => exact hNext a hUses
  | throw e => exact .throw
  | request op k ih =>
      exact .request hUses.1 fun a => ih a (hUses.2 a)

/- A program that stays in `S` need not arrive. -/
theorem Leads.of_uses
    {T : Program E A ε α → Prop}
    (hUses : Uses S V p) :
    Leads S T p := by
  induction p with
  | pure a => exact .pure
  | throw e => exact .throw
  | request op k ih =>
      exact .request hUses.1 fun a => ih a (hUses.2 a)

/- What the programs of `T` use, one that leads there uses. -/
theorem Leads.uses
    {T : Program E A ε α → Prop}
    {S' : E → Prop}
    (hLeads : Leads S T p)
    (hOp : ∀ op, S op → S' op)
    (hTail : ∀ p, T p → Uses S' (fun _ => True) p) :
    Uses S' (fun _ => True) p := by
  induction hLeads with
  | arrived hArrived => exact hTail _ hArrived
  | pure => trivial
  | throw => trivial
  | request hRequest hRest ih =>
      exact ⟨hOp _ hRequest, ih⟩

/- One request of `S` comes before the rest. -/
theorem Leads.perform
    {T : Program E A ε β → Prop}
    {op : E}
    {f : A op → Program E A ε β}
    (hOp : S op)
    (hNext : ∀ a, Leads S T (f a)) :
    Leads S T (Program.perform op >>= f) :=
  .request hOp hNext

/-
  An execution stays in `S`, or it stays there up to a point
  where a program of `T` takes over.
-/
theorem Leads.exec
    {T : Program E A ε α → Prop}
    {M : Machine E A W}
    {w w' : W}
    {steps : List (Step E A W)}
    {r : Option (Except ε α)}
    (hLeads : Leads S T p)
    (hExec : Exec M w p steps w' r) :
    (∀ s ∈ steps, S s.op) ∨
      ∃ early late tail v, T tail ∧ steps = early ++ late ∧
        (∀ s ∈ early, S s.op) ∧ Exec M v tail late w' r := by
  induction hLeads generalizing w steps with
  | @arrived p hTail =>
      exact .inr ⟨[], steps, p, w, hTail, rfl, by simp, hExec⟩
  | pure =>
      cases hExec with
      | stop => exact .inl (by simp)
      | pure => exact .inl (by simp)
  | throw =>
      cases hExec with
      | stop => exact .inl (by simp)
      | throw => exact .inl (by simp)
  | @request op k hOp hRest ih =>
      cases hExec with
      | stop => exact .inl (by simp)
      | request hAllowed hExec =>
          rcases ih _ hExec with hStays |
            ⟨early, late, tail, v, hTail, hEq, hEarly, hLate⟩
          · refine .inl ?_
            intro s hs
            rcases List.mem_cons.mp hs with hSame | hMem
            · rw [hSame]
              exact hOp
            · exact hStays s hMem
          · refine .inr ⟨_ :: early, late, tail, v, hTail,
              by rw [hEq]; rfl, ?_, hLate⟩
            intro s hs
            rcases List.mem_cons.mp hs with hSame | hMem
            · rw [hSame]
              exact hOp
            · exact hEarly s hMem

/-
  A program is safe when an invariant covers the requests of
  `S` and lets every program of `T` go on safely.
-/
theorem Leads.safe
    {T : Program E A ε α → Prop}
    {M : Machine E A W}
    {P : W → E → Prop}
    {I : W → Prop}
    {w : W}
    (hLeads : Leads S T p)
    (hOp : ∀ w op, I w → S op → P w op)
    (hStep : ∀ w op a, I w → S op →
      M.allowed w op a → I (M.next w op a))
    (hTail : ∀ tail w, T tail → I w →
      Safe M P (fun _ _ => True) (fun _ _ => True) tail w)
    (hInit : I w) :
    Safe M P (fun _ _ => True) (fun _ _ => True) p w := by
  induction hLeads generalizing w with
  | arrived hArrived => exact hTail _ w hArrived hInit
  | pure => trivial
  | throw => trivial
  | @request op k hRequest hRest ih =>
      refine ⟨hOp w op hInit hRequest, ?_⟩
      intro a hAllowed
      exact ih a (hStep w op a hInit hRequest hAllowed)

end Effects
