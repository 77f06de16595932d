import Mathlib.Data.List.Basic

/-
  This file is about readers: programs that read some of a
  text and leave the rest of it. `Reads` compares two readers
  and says what they take. Readers that call themselves are
  defined with a bound on the depth of the calls, and two
  bounds give the same reader for each text that is shorter
  than both of them.

  Key definitions include:
    * `Reader`
    * `Reads`

  Key theorems include:
    * `Reads.bind`
    * `Reads.bindText`
-/

namespace Texts

variable {σ τ α β : Type}

abbrev Reader (σ : Type) := StateT σ Option

/-
  On each text shorter than the size both readers do the same,
  and what is read stands in a relation to what is taken.
-/
def Reads
    (rest : σ → List τ)
    (size : Nat)
    (p q : Reader σ α)
    (Q : α → List τ → Prop) :
    Prop :=
  ∀ s, (rest s).length < size →
    p s = q s ∧
      ∀ a s', p s = some (a, s') →
        ∃ taken, rest s = taken ++ rest s' ∧ Q a taken

variable {rest : σ → List τ}
variable {size : Nat}

namespace Reads

theorem pure
    {a : α}
    {Q : α → List τ → Prop}
    (hRead : Q a []) :
    Reads rest size (Pure.pure a) (Pure.pure a) Q := by
  intro s _
  refine ⟨rfl, ?_⟩
  intro b s' hSome
  cases hSome
  exact ⟨[], rfl, hRead⟩

/- What is read after something else is read of its rest. -/
theorem bind
    {p q : Reader σ α}
    {f g : α → Reader σ β}
    {Q : α → List τ → Prop}
    {R : β → List τ → Prop}
    (hFirst : Reads rest size p q Q)
    (hNext : ∀ a taken less, less + 1 + taken.length = size →
      Q a taken →
        Reads rest (less + 1) (f a) (g a)
          (fun b more => R b (taken ++ more))) :
    Reads rest size (p >>= f) (q >>= g) R := by
  intro s hShort
  rcases hFirst s hShort with ⟨hSame, hTaken⟩
  change (p s >>= fun read => f read.1 read.2) =
      (q s >>= fun read => g read.1 read.2) ∧
    ∀ b s', (p s >>= fun read => f read.1 read.2) =
      some (b, s') → _
  rw [← hSame]
  cases hRead : p s with
  | none =>
      refine ⟨rfl, ?_⟩
      intro b s' hSome
      cases hSome
  | some read =>
      rcases read with ⟨a, s₁⟩
      rcases hTaken a s₁ hRead with ⟨taken, hText, hQ⟩
      rw [hText, List.length_append] at hShort
      have hRest := hNext a taken (size - taken.length - 1)
        (by omega) hQ s₁ (by omega)
      refine ⟨hRest.1, ?_⟩
      intro b s' hSome
      rcases hRest.2 b s' hSome with ⟨more, hMore, hR⟩
      refine ⟨taken ++ more, ?_, hR⟩
      rw [hText, hMore, List.append_assoc]

/- The first reader takes the text of what it reads. -/
theorem bindText
    {p q : Reader σ α}
    {f g : α → Reader σ β}
    {text : α → List τ}
    {R : β → List τ → Prop}
    (hFirst : Reads rest size p q
      (fun a taken => text a = taken))
    (hNext : ∀ a less, less + 1 + (text a).length = size →
      Reads rest (less + 1) (f a) (g a)
        (fun b more => R b (text a ++ more))) :
    Reads rest size (p >>= f) (q >>= g) R := by
  apply hFirst.bind
  intro a taken less hLess hText
  rw [← hText] at hLess ⊢
  exact hNext a less hLess

/- The first reader takes something. -/
theorem bindSome
    {p q : Reader σ α}
    {f g : α → Reader σ β}
    {text : α → List τ}
    {R : β → List τ → Prop}
    (hFirst : Reads rest size p q
      (fun a taken => text a = taken ∧ 0 < taken.length))
    (hNext : ∀ a less, less + 1 + (text a).length = size →
      0 < (text a).length →
        Reads rest (less + 1) (f a) (g a)
          (fun b more => R b (text a ++ more))) :
    Reads rest size (p >>= f) (q >>= g) R := by
  apply hFirst.bind
  intro a taken less hLess hTaken
  rcases hTaken with ⟨hText, hSome⟩
  rw [← hText] at hLess hSome ⊢
  exact hNext a less hLess hSome

/- The first reader takes nothing. -/
theorem bindNothing
    {p q : Reader σ α}
    {f g : α → Reader σ β}
    {R : β → List τ → Prop}
    (hFirst : Reads rest size p q (fun _ taken => taken = []))
    (hNext : ∀ a, Reads rest size (f a) (g a) R) :
    Reads rest size (p >>= f) (q >>= g) R := by
  apply hFirst.bind
  intro a taken less hLess hNil
  rw [hNil, List.length_nil] at hLess
  have hRest := hNext a
  rw [← hLess] at hRest
  rw [hNil]
  exact hRest

theorem ite
    {c : Prop}
    [Decidable c]
    {p q p' q' : Reader σ α}
    {Q : α → List τ → Prop}
    (hThen : c → Reads rest size p q Q)
    (hElse : ¬c → Reads rest size p' q' Q) :
    Reads rest size (if c then p else p')
      (if c then q else q') Q := by
  by_cases hCase : c
  · rw [if_pos hCase, if_pos hCase]
    exact hThen hCase
  · rw [if_neg hCase, if_neg hCase]
    exact hElse hCase

theorem mono
    {p q : Reader σ α}
    {Q R : α → List τ → Prop}
    {less : Nat}
    (hReads : Reads rest size p q Q)
    (hLess : less ≤ size)
    (hWeaker : ∀ a taken, Q a taken → R a taken) :
    Reads rest less p q R := by
  intro s hShort
  rcases hReads s (by omega) with ⟨hSame, hTaken⟩
  refine ⟨hSame, ?_⟩
  intro a s' hSome
  rcases hTaken a s' hSome with ⟨taken, hText, hQ⟩
  exact ⟨taken, hText, hWeaker a taken hQ⟩

end Reads

end Texts
