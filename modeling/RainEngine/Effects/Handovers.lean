import RainEngine.Effects.Failures

/-
  This file defines programs that hand over to another
  program. Up to there every request is safe, and the world
  is then one the other program may take over in.

  Key definitions include:
    * `HandsOver`

  Key theorems include:
    * `HandsOver.bind`
    * `HandsOver.of_leads`
    * `HandsOver.exec`
-/

namespace Effects

variable {E : Type} {A : E → Type} {ε α β W : Type}

/-
  `HandsOver M P T p w`: whatever allowed answers `p` gets from
  the world `w` on, each request satisfies `P` until `p` goes
  on as a program and in a world that `T` holds of.
-/
def HandsOver
    (M : Machine E A W)
    (P : W → E → Prop)
    (T : Program E A ε α → W → Prop) :
    Program E A ε α → W → Prop
  | .pure a, w => T (.pure a) w
  | .throw e, w => T (.throw e) w
  | .request op k, w =>
      T (.request op k) w ∨
        P w op ∧ ∀ a : A op, M.allowed w op a →
          HandsOver M P T (k a) (M.next w op a)

variable {M : Machine E A W}
variable {P P' : W → E → Prop}
variable {T T' : Program E A ε α → W → Prop}
variable {p : Program E A ε α}
variable {w w' : W}

theorem HandsOver.of_takeover
    (hTakes : T p w) :
    HandsOver M P T p w := by
  cases p with
  | pure a => exact hTakes
  | throw e => exact hTakes
  | request op k => exact .inl hTakes

theorem HandsOver.mono
    (hP : ∀ w op, P w op → P' w op)
    (hT : ∀ p w, T p w → T' p w)
    (hHands : HandsOver M P T p w) :
    HandsOver M P' T' p w := by
  induction p generalizing w with
  | pure a => exact hT _ _ hHands
  | throw e => exact hT _ _ hHands
  | request op k ih =>
      cases hHands with
      | inl hTakes => exact .inl (hT _ _ hTakes)
      | inr hGoes =>
          right
          exact ⟨hP w op hGoes.1,
            fun a hAllowed => ih a (hGoes.2 a hAllowed)⟩

/- A safe part comes before the rest. -/
theorem HandsOver.bind
    {T : Program E A ε β → W → Prop}
    {Q : α → W → Prop}
    {f : α → Program E A ε β}
    (hSafe : Safe M P Q (fun _ _ => False) p w)
    (hNext : ∀ a w', Q a w' → HandsOver M P T (f a) w') :
    HandsOver M P T (p >>= f) w := by
  induction p generalizing w with
  | pure a => exact hNext a w hSafe
  | throw e => exact hSafe.elim
  | request op k ih =>
      right
      exact ⟨hSafe.1,
        fun a hAllowed => ih a (hSafe.2 a hAllowed)⟩

/-
  A program that leads to another one hands over to it, with
  its footprint, in a world the requests up to there keep.
-/
theorem HandsOver.of_leads
    {S S' : E → Prop}
    {V : α → Prop}
    {I : W → Prop}
    {G : Program E A ε α → Prop}
    (hLeads : Leads S G p)
    (hUses : Uses S' V p)
    (hPure : ∀ a, G (.pure a))
    (hThrow : ∀ e, G (.throw e))
    (hOp : ∀ w op, S op → P w op)
    (hStep : ∀ w op a, I w → S op →
      M.allowed w op a → I (M.next w op a))
    (hInit : I w) :
    HandsOver M P (fun p w => G p ∧ Uses S' V p ∧ I w) p
      w := by
  induction hLeads generalizing w with
  | arrived hArrived =>
      exact .of_takeover ⟨hArrived, hUses, hInit⟩
  | pure => exact ⟨hPure _, hUses, hInit⟩
  | throw => exact ⟨hThrow _, hUses, hInit⟩
  | @request op k hRequest hRest ih =>
      right
      refine ⟨hOp w op hRequest, ?_⟩
      intro a hAllowed
      exact ih a (hUses.2 a)
        (hStep w op a hInit hRequest hAllowed)

/-
  An execution stops early, or it falls in two at the world
  another program takes over in. The answers need only be
  allowed up to there, where requests of `D` cannot come.
-/
theorem HandsOver.exec
    {C : W → (op : E) → A op → Prop}
    {D : E → Bool}
    {steps : List (Step E A W)}
    {r : Option (Except ε α)}
    (hHands : HandsOver (M.restrict C) P T p w)
    (hBefore : ∀ w op, P w op → D op = false)
    (hExec : Exec M w p steps w' r)
    (hAnswers :
      ∀ s ∈ steps.takeWhile fun s => !D s.op,
        C s.before s.op s.answer) :
    (r = none ∧ ∀ s ∈ steps, P s.before s.op) ∨
      ∃ early late tail v, steps = early ++ late ∧
        (∀ s ∈ early, P s.before s.op) ∧
        Exec M w p early v none ∧ T tail v ∧
        Exec M v tail late w' r := by
  induction p generalizing w steps with
  | pure a =>
      exact .inr ⟨[], steps, .pure a, w, rfl,
        fun _ hMem => absurd hMem List.not_mem_nil, .stop,
        hHands, hExec⟩
  | throw e =>
      exact .inr ⟨[], steps, .throw e, w, rfl,
        fun _ hMem => absurd hMem List.not_mem_nil, .stop,
        hHands, hExec⟩
  | request op k ih =>
      cases hHands with
      | inl hTakes =>
          exact .inr ⟨[], steps, .request op k, w, rfl,
            fun _ hMem => absurd hMem List.not_mem_nil,
            .stop, hTakes, hExec⟩
      | inr hGoes =>
          rcases hGoes with ⟨hRequest, hRest⟩
          rcases hExec.of_request with
            ⟨hNone, _, hStopped⟩ |
            ⟨a, rest, hAllowed, hSteps, hTail⟩
          · left
            refine ⟨hStopped, ?_⟩
            rw [hNone]
            exact fun _ hMem => absurd hMem List.not_mem_nil
          · subst hSteps
            have hTaken :
                (⟨w, op, a⟩ :: rest).takeWhile
                    (fun s : Step E A W => !D s.op) =
                  ⟨w, op, a⟩ ::
                    rest.takeWhile fun s => !D s.op := by
              rw [List.takeWhile_cons_of_pos]
              rw [hBefore w op hRequest]
              rfl
            rw [hTaken] at hAnswers
            have hHead := hAnswers _ List.mem_cons_self
            rcases ih a (hRest a ⟨hAllowed, hHead⟩) hTail
                (fun s hMem => hAnswers s
                  (List.mem_cons_of_mem _ hMem)) with
              ⟨hStopped, hSafe⟩ |
              ⟨early, late, tail, v, hEq, hSafe, hEarly,
                hTakes, hLate⟩
            · left
              refine ⟨hStopped, ?_⟩
              exact List.forall_mem_cons.mpr
                ⟨hRequest, hSafe⟩
            · right
              refine ⟨⟨w, op, a⟩ :: early, late, tail, v, ?_,
                List.forall_mem_cons.mpr ⟨hRequest, hSafe⟩,
                .request hAllowed hEarly, hTakes, hLate⟩
              rw [hEq]
              rfl

end Effects
