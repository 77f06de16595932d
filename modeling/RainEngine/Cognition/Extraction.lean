import RainEngine.Runtime.Bootstrap
import RainEngine.Texts.Offsets

/-
  This file is about how a planner finds the JSON object in
  the text of a model. It takes what is between the first
  opening and the last closing brace. An object between texts
  without braces is found; a text whose braces are the wrong
  way around, with something between them, panics.

  Key definitions include:
    * `extractJson`
    * `Extracts`
    * `Encloses`
    * `BracesCrossed`

  Key theorems include:
    * `extractJson_extracts`
    * `extractJson_encloses`
    * `extractJson_eq_none`
-/

namespace RainEngine.Cognition

open RainEngine.Skills (isWhitespace)
open RainEngine.Runtime (trim)
open Texts (find rfind slice width)

------------------------------------------------------------
-- Extraction
------------------------------------------------------------

def openBrace : Char := '\x7b'

def closeBrace : Char := '\x7d'

/- The object in a text; slicing the text may panic. -/
def extractJson (text : String) : Option String :=
  let chars := (trim text).toList
  match find Char.utf8Size openBrace chars,
      rfind Char.utf8Size closeBrace chars with
  | some start, some last =>
      (slice Char.utf8Size chars start (last + 1)).map
        String.ofList
  | _, _ => some (trim text)

def Unbraced (chars : List Char) : Prop :=
  openBrace ∉ chars ∧ closeBrace ∉ chars

/-
  All closing braces are before the opening ones, and there is
  something between the last closing and the first opening.
-/
inductive BracesCrossed (text : String) : Prop where
  | intro {before between after : List Char}
      (hText :
        text.toList = before ++
          closeBrace :: (between ++ openBrace :: after))
      (hFirst : openBrace ∉ before)
      (hLast : closeBrace ∉ after)
      (hBetween : Unbraced between)
      (hApart : between ≠ [])

/-
  The text is one object between texts without braces. The
  text of an object starts and ends with its braces.
-/
structure Encloses (text object : String) : Prop where
  parts :
    ∃ opening closing : String,
      text = opening ++ object ++ closing ∧
        Unbraced opening.toList ∧ Unbraced closing.toList
  object :
    ∃ body,
      object.toList = openBrace :: (body ++ [closeBrace])

/- What is extracted from a text. -/
inductive Extracts
    (text : String) :
    Option String → Prop where
  | whole
      (hUnbraced :
        openBrace ∉ text.toList ∨
          closeBrace ∉ text.toList) :
      Extracts text (some (trim text))
  | braced {before body after : List Char}
      (hText :
        text.toList = before ++
          openBrace :: (body ++ closeBrace :: after))
      (hFirst : openBrace ∉ before)
      (hLast : closeBrace ∉ after) :
      Extracts text
        (some (String.ofList
          (openBrace :: (body ++ [closeBrace]))))
  | adjoining {before after : List Char}
      (hText :
        text.toList = before ++
          closeBrace :: openBrace :: after)
      (hFirst : openBrace ∉ before)
      (hLast : closeBrace ∉ after) :
      Extracts text (some "")
  | crossed (hCrossed : BracesCrossed text) :
      Extracts text none

section Extraction

variable {text : String}
variable {chars : List Char}

theorem braces_apart : openBrace ≠ closeBrace := by
  decide

theorem utf8Size_pos
    (c : Char) :
    0 < c.utf8Size :=
  c.utf8Size_pos

/- A slice from the first to the last brace. -/
theorem slice_braces
    {before body after : List Char} :
    slice Char.utf8Size
        (before ++
          openBrace :: (body ++ closeBrace :: after))
        (width Char.utf8Size before)
        (width Char.utf8Size
          (before ++ openBrace :: body) + 1) =
      some (openBrace :: (body ++ [closeBrace])) := by
  have hStop :
      width Char.utf8Size (before ++ openBrace :: body) + 1 =
        width Char.utf8Size before +
          width Char.utf8Size
            (openBrace :: (body ++ [closeBrace])) := by
    rw [← List.cons_append, Texts.width_append,
      Texts.width_append, Nat.add_assoc]
    rfl
  have hChars :
      before ++ openBrace :: (body ++ closeBrace :: after) =
        before ++
          (openBrace :: (body ++ [closeBrace]) ++ after) := by
    simp
  rw [hStop, hChars]
  exact Texts.slice_append utf8Size_pos

/- A slice between a closing and an opening brace is empty. -/
theorem slice_adjoining
    {before after : List Char} :
    slice Char.utf8Size
        (before ++ closeBrace :: openBrace :: after)
        (width Char.utf8Size (before ++ [closeBrace]))
        (width Char.utf8Size before + 1) =
      some [] := by
  have hWidth :
      width Char.utf8Size (before ++ [closeBrace]) =
        width Char.utf8Size before + 1 :=
    Texts.width_append _ _
  have hChars :
      before ++ closeBrace :: openBrace :: after =
        before ++ [closeBrace] ++
          ([] ++ openBrace :: after) := by
    simp
  rw [← hWidth, hChars]
  exact Texts.slice_append utf8Size_pos

/- A slice that ends before it starts is not defined. -/
theorem slice_crossed
    {chars before between : List Char}
    (hBetween : between ≠ []) :
    slice Char.utf8Size chars
        (width Char.utf8Size (before ++ closeBrace :: between))
        (width Char.utf8Size before + 1) =
      none := by
  apply Texts.slice_reversed
  rw [Texts.width_append]
  cases between with
  | nil => exact absurd rfl hBetween
  | cons c between =>
      have hPos := utf8Size_pos c
      show _ < _ + (1 + (c.utf8Size + _))
      omega

theorem unbraced_of_whitespace
    (hBlank : ∀ c ∈ chars, isWhitespace c = true) :
    Unbraced chars := by
  constructor
  · intro hMem
    exact absurd (hBlank openBrace hMem) (by decide)
  · intro hMem
    exact absurd (hBlank closeBrace hMem) (by decide)

theorem mem_takeWhile_whitespace
    {c : Char}
    (hMem : c ∈ chars.takeWhile isWhitespace) :
    isWhitespace c = true :=
  List.mem_takeWhile_imp hMem

/- What is trimmed has no braces. -/
theorem trim_spec
    (text : String) :
    ∃ lead trail,
      text.toList = lead ++ ((trim text).toList ++ trail) ∧
        Unbraced lead ∧ Unbraced trail := by
  refine ⟨text.toList.takeWhile isWhitespace,
    ((text.toList.dropWhile isWhitespace).reverse.takeWhile
      isWhitespace).reverse, ?_, ?_, ?_⟩
  · unfold trim
    rw [String.toList_ofList, ← List.reverse_append,
      List.takeWhile_append_dropWhile, List.reverse_reverse,
      List.takeWhile_append_dropWhile]
  · exact unbraced_of_whitespace fun _ hMem =>
      mem_takeWhile_whitespace hMem
  · exact unbraced_of_whitespace fun _ hMem =>
      mem_takeWhile_whitespace (List.mem_reverse.mp hMem)

/- The cases of the order of the two braces. -/
theorem extractJson_extracts
    (text : String) :
    Extracts text (extractJson text) := by
  obtain ⟨lead, trail, hText, hLead, hTrail⟩ :=
    trim_spec text
  unfold extractJson
  generalize hChars : (trim text).toList = chars
  rw [hChars] at hText
  cases hOpen : find Char.utf8Size openBrace chars with
  | none =>
      simp only [hOpen]
      refine .whole (.inl ?_)
      have hNone := Texts.find_eq_none hOpen
      simp [hText, hLead.1, hTrail.1, hNone]
  | some start =>
      cases hClose : rfind Char.utf8Size closeBrace chars with
      | none =>
          simp only [hOpen, hClose]
          refine .whole (.inr ?_)
          have hNone := Texts.rfind_eq_none hClose
          simp [hText, hLead.2, hTrail.2, hNone]
      | some last =>
          simp only [hOpen, hClose]
          obtain ⟨before, after, hFront, hFirst, hStart⟩ :=
            Texts.find_eq_some hOpen
          obtain ⟨front, rest, hRear, hLast, hStop⟩ :=
            Texts.rfind_eq_some hClose
          rw [hStart, hStop]
          cases Texts.occurrences_ordered braces_apart
            (hFront.symm.trans hRear) with
          | inl hOrdered =>
              obtain ⟨body, hBefore, hAfter⟩ := hOrdered
              rw [hFront, hBefore, hAfter, slice_braces]
              refine @Extracts.braced text (lead ++ before) body
                (rest ++ trail) ?_ ?_ ?_
              · rw [hText, hFront, hAfter]
                simp
              · simp [hLead.1, hFirst]
              · simp [hLast, hTrail.2]
          | inr hReversed =>
              obtain ⟨between, hBefore, hRest⟩ := hReversed
              rw [hBefore] at hFirst ⊢
              rw [hRest] at hLast hRear
              simp only [List.mem_append, List.mem_cons,
                not_or] at hFirst hLast
              have hFrom : openBrace ∉ lead ++ front := by
                simp [hLead.1, hFirst.1]
              have hTo : closeBrace ∉ after ++ trail := by
                simp [hLast.2.2, hTrail.2]
              by_cases hApart : between = []
              · rw [hApart, List.nil_append] at hRear
                rw [hApart, hRear, slice_adjoining]
                refine .adjoining ?_ hFrom hTo
                rw [hText, hRear]
                simp
              · rw [slice_crossed hApart]
                refine .crossed ⟨?_, hFrom, hTo,
                  ⟨hFirst.2.2, hLast.1⟩, hApart⟩
                rw [hText, hRear]
                simp

/- The first opening brace, when a closing one is before. -/
theorem first_after_close
    {before between after opening rest : List Char}
    (hBefore : openBrace ∉ before)
    (hBetween : openBrace ∉ between)
    (hOpening : openBrace ∉ opening)
    (hSame :
      before ++ closeBrace :: (between ++ openBrace :: after) =
        opening ++ openBrace :: rest) :
    opening = before ++ closeBrace :: between ∧
      rest = after := by
  have hAll :
      before ++ closeBrace ::
          (between ++ openBrace :: after) =
        before ++ closeBrace :: between ++
          openBrace :: after := by
    simp
  have hFirst :
      openBrace ∉ before ++ closeBrace :: between := by
    simp [hBefore, hBetween, braces_apart]
  obtain ⟨hOpen, hRest⟩ := Texts.first_unique hFirst
    hOpening (hAll.symm.trans hSame)
  exact ⟨hOpen.symm, hRest.symm⟩

/- An object between texts without braces is found. -/
theorem extractJson_encloses
    {object : String}
    (hEncloses : Encloses text object) :
    extractJson text = some object := by
  obtain ⟨opening, closing, hParts, hOpening, hClosing⟩ :=
    hEncloses.parts
  obtain ⟨inner, hObject⟩ := hEncloses.object
  have hWhole :
      text.toList = opening.toList ++ openBrace ::
        (inner ++ closeBrace :: closing.toList) := by
    rw [hParts, String.toList_append, String.toList_append,
      hObject]
    simp
  have hExtracts := extractJson_extracts text
  generalize extractJson text = out at hExtracts
  cases hExtracts with
  | whole hUnbraced =>
      rw [hWhole] at hUnbraced
      simp at hUnbraced
  | braced hText hFirst hLast =>
      obtain ⟨_, hRest⟩ := Texts.first_unique hFirst
        hOpening.1 (hText.symm.trans hWhole)
      obtain ⟨hBody, _⟩ := Texts.last_unique hLast
        hClosing.2 hRest
      rw [hBody, ← hObject, String.ofList_toList]
  | @adjoining before after hText hFirst hLast =>
      have hOpen := (@first_after_close before [] after
        _ _ hFirst List.not_mem_nil hOpening.1
        (hText.symm.trans hWhole)).1
      have hClosed := hOpening.2
      rw [hOpen] at hClosed
      simp at hClosed
  | crossed hCrossed =>
      obtain ⟨hText, hFirst, _, hBetween, _⟩ := hCrossed
      have hOpen := (first_after_close hFirst hBetween.1
        hOpening.1 (hText.symm.trans hWhole)).1
      have hClosed := hOpening.2
      rw [hOpen] at hClosed
      simp at hClosed

/- The text panics exactly if its braces are crossed. -/
theorem extractJson_eq_none :
    extractJson text = none ↔ BracesCrossed text := by
  have hExtracts := extractJson_extracts text
  generalize extractJson text = out at hExtracts ⊢
  constructor
  · intro hNone
    rw [hNone] at hExtracts
    cases hExtracts with
    | crossed hCrossed => exact hCrossed
  · intro hCrossed
    obtain ⟨hText, hFirst, hLast, hBetween, hApart⟩ :=
      hCrossed
    cases hExtracts with
    | whole hUnbraced =>
        rw [hText] at hUnbraced
        simp at hUnbraced
    | braced hBraced hOpening _ =>
        have hRest := (first_after_close hFirst hBetween.1
          hOpening (hText.symm.trans hBraced)).2
        rw [← hRest] at hLast
        simp at hLast
    | @adjoining before after hAdjoining hOpening _ =>
        have hAll :
            before ++ closeBrace :: openBrace :: after =
              before ++ [closeBrace] ++
                openBrace :: after := by
          simp
        have hAlone : openBrace ∉ before ++ [closeBrace] := by
          simp [hOpening, braces_apart]
        have hSame := (first_after_close hFirst hBetween.1
          hAlone (hText.symm.trans
            (hAdjoining.trans hAll))).1
        obtain ⟨_, hEmpty⟩ := Texts.last_unique
          List.not_mem_nil hBetween.2 hSame
        exact absurd hEmpty.symm hApart
    | crossed _ => rfl

end Extraction

end RainEngine.Cognition
