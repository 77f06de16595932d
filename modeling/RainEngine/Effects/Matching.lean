import RainEngine.Effects.Traces

/-
  This file defines when the executions of a program on one
  machine are matched by those of another program on another
  machine. Some requests are kept in step, the others are
  hidden: either side may have issued more of them.

  Key definitions include:
    * `visible`
    * `KeepsStep`
    * `Matched`

  Key theorems include:
    * `Matched.of_uses`
    * `Matched.after`
    * `Matched.both`
    * `Matched.left`
    * `Matched.right`
-/

namespace Effects

variable {E : Type} {A : E → Type} {ε α β W V : Type}

/- The exchanges that are seen of the steps. -/
def visible
    (seen : E → Bool)
    (steps : List (Step E A W)) :
    List (Exchange A) :=
  (steps.map Step.exchange).filter fun exchange =>
    seen exchange.1

theorem visible_cons
    {seen : E → Bool}
    {w : W}
    {op : E}
    {a : A op}
    {steps : List (Step E A W)} :
    visible seen (⟨w, op, a⟩ :: steps) =
      if seen op then ⟨op, a⟩ :: visible seen steps
      else visible seen steps := by
  unfold visible
  rw [List.map_cons, List.filter_cons]
  rfl

/- The answers of one machine are possible on the other. -/
def KeepsStep
    (M : Machine E A W)
    (M' : Machine E A V)
    (rel : W → V → Prop)
    (S : E → Prop) : Prop :=
  ∀ w v op a, S op → rel w v → M.allowed w op a →
    M'.allowed v op a ∧ rel (M.next w op a) (M'.next v op a)

/-
  Each execution of `p` has one of `q` that ends alike, in a
  related world, with the same visible exchanges.
-/
def Matched
    (M : Machine E A W)
    (M' : Machine E A V)
    (rel : W → V → Prop)
    (seen : E → Bool)
    (p q : Program E A ε α)
    (w : W)
    (v : V) : Prop :=
  ∀ steps w' r, Exec M w p steps w' r →
    ∃ steps' v', Exec M' v q steps' v' r ∧ rel w' v' ∧
      visible seen steps' = visible seen steps

section Rules

variable {M : Machine E A W}
variable {M' : Machine E A V}
variable {rel : W → V → Prop}
variable {seen : E → Bool}
variable {S : E → Prop}
variable {p q : Program E A ε α}
variable {w : W}
variable {v : V}

/- Both sides issue a request and go on alike. -/
theorem Matched.both
    {op : E}
    {k k' : A op → Program E A ε α}
    (hStep : KeepsStep M M' rel S)
    (hOp : S op)
    (hRel : rel w v)
    (hNext : ∀ a, M.allowed w op a →
      rel (M.next w op a) (M'.next v op a) →
        Matched M M' rel seen (k a) (k' a)
          (M.next w op a) (M'.next v op a)) :
    Matched M M' rel seen (.request op k) (.request op k')
      w v := by
  intro steps w' r hExec
  cases hExec with
  | stop => exact ⟨[], v, .stop, hRel, rfl⟩
  | @request _ _ _ _ a rest _ hAllowed hRest =>
      rcases hStep w v op a hOp hRel hAllowed with
        ⟨hAllowed', hRel'⟩
      rcases hNext a hAllowed hRel' rest w' r hRest with
        ⟨steps', v', hExec', hEnd, hSame⟩
      refine
        ⟨⟨v, op, a⟩ :: steps', v',
          .request hAllowed' hExec', hEnd, ?_⟩
      rw [visible_cons, visible_cons, hSame]

/- The left side issues a hidden request of its own. -/
theorem Matched.left
    {op : E}
    {k : A op → Program E A ε α}
    (hHidden : seen op = false)
    (hRel : rel w v)
    (hNext : ∀ a, M.allowed w op a →
      Matched M M' rel seen (k a) q (M.next w op a) v) :
    Matched M M' rel seen (.request op k) q w v := by
  intro steps w' r hExec
  cases hExec with
  | stop => exact ⟨[], v, .stop, hRel, rfl⟩
  | @request _ _ _ _ a rest _ hAllowed hRest =>
      rcases hNext a hAllowed rest w' r hRest with
        ⟨steps', v', hExec', hEnd, hSame⟩
      refine ⟨steps', v', hExec', hEnd, ?_⟩
      rw [visible_cons, hHidden, hSame]
      rfl

/- The right side issues one that has a fitting answer. -/
theorem Matched.right
    {op : E}
    {a : A op}
    {k : A op → Program E A ε α}
    (hHidden : seen op = false)
    (hAllowed : M'.allowed v op a)
    (hNext :
      Matched M M' rel seen p (k a) w (M'.next v op a)) :
    Matched M M' rel seen p (.request op k) w v := by
  intro steps w' r hExec
  rcases hNext steps w' r hExec with
    ⟨steps', v', hExec', hEnd, hSame⟩
  refine
    ⟨⟨v, op, a⟩ :: steps', v', .request hAllowed hExec',
      hEnd, ?_⟩
  rw [visible_cons, hHidden]
  exact hSame

/- What is left after a part that is kept in step. -/
theorem Matched.after
    {p : Program E A ε α}
    {f g : α → Program E A ε β}
    (hStep : KeepsStep M M' rel S)
    (hUses : Uses S (fun _ => True) p)
    (hRel : rel w v)
    (hNext : ∀ a w' v', rel w' v' →
      Matched M M' rel seen (f a) (g a) w' v') :
    Matched M M' rel seen (p >>= f) (p >>= g) w v := by
  induction p generalizing w v with
  | pure a => exact hNext a w v hRel
  | throw e =>
      intro steps w' r hExec
      cases hExec with
      | stop => exact ⟨[], v, .stop, hRel, rfl⟩
      | throw => exact ⟨[], v, .throw, hRel, rfl⟩
  | request op k ih =>
      exact Matched.both hStep hUses.1 hRel
        fun a _ hRel' => ih a (hUses.2 a) hRel'

/- A program that is kept in step matches itself. -/
theorem Matched.of_uses
    (hStep : KeepsStep M M' rel S)
    (hUses : Uses S (fun _ => True) p)
    (hRel : rel w v) :
    Matched M M' rel seen p p w v := by
  induction p generalizing w v with
  | pure a =>
      intro steps w' r hExec
      cases hExec with
      | stop => exact ⟨[], v, .stop, hRel, rfl⟩
      | pure => exact ⟨[], v, .pure, hRel, rfl⟩
  | throw e =>
      intro steps w' r hExec
      cases hExec with
      | stop => exact ⟨[], v, .stop, hRel, rfl⟩
      | throw => exact ⟨[], v, .throw, hRel, rfl⟩
  | request op k ih =>
      exact Matched.both hStep hUses.1 hRel
        fun a _ hRel' => ih a (hUses.2 a) hRel'

end Rules

end Effects
