import RainEngine.Kernel.Json

/-
  This file is about the tool outputs the Gemini provider
  sends: long texts are cut at a byte offset, and slicing a
  text inside a character panics. A value is truncated without
  a panic exactly when the offset is a boundary of every long
  text in it, and then only its long texts change.

  Key definitions include:
    * `sliceTo`
    * `truncateToolOutput`
    * `Truncates`
    * `Json.texts`

  Key theorems include:
    * `truncateToolOutput_truncates`
    * `truncateToolOutput_iff`
    * `euros_panic`
-/

namespace RainEngine

------------------------------------------------------------
-- Slices Of Texts
------------------------------------------------------------

/- The byte offset is a character boundary of the text. -/
abbrev IsBoundary
    (text : String)
    (bytes : Nat) :
    Prop :=
  (⟨bytes⟩ : String.Pos.Raw).IsValid text

/- The first bytes of a text, or a panic. -/
def sliceTo
    (text : String)
    (bytes : Nat) :
    Option String :=
  if hBoundary : IsBoundary text bytes then
    some (text.sliceTo (text.pos _ hBoundary)).copy
  else none

section Slices

variable {text head : String}
variable {bytes : Nat}

theorem sliceTo_isSome :
    (sliceTo text bytes).isSome ↔ IsBoundary text bytes := by
  unfold sliceTo
  by_cases hBoundary : IsBoundary text bytes
  · rw [dif_pos hBoundary]
    simpa using hBoundary
  · rw [dif_neg hBoundary]
    simpa using hBoundary

/- A slice is an initial part of as many bytes. -/
theorem sliceTo_spec
    (hSlice : sliceTo text bytes = some head) :
    head.utf8ByteSize = bytes ∧
      ∃ rest, text = head ++ rest := by
  unfold sliceTo at hSlice
  split at hSlice
  · rename_i hBoundary
    cases hSlice
    have hSplits := (text.pos _ hBoundary).splits
    refine ⟨?_, _, hSplits.eq_append⟩
    have hOffset := hSplits.offset_eq_rawEndPos
    rw [String.offset_pos] at hOffset
    exact (congrArg String.Pos.Raw.byteIdx hOffset).symm
  · cases hSlice

end Slices

------------------------------------------------------------
-- Truncation
------------------------------------------------------------

/- How many bytes of a text are sent. -/
def toolOutputLimit : Nat :=
  65536

def truncationNote (bytes : Nat) : String :=
  "... [TRUNCATED " ++ toString bytes ++
    " bytes for token efficiency]"

mutual

def truncateToolOutput : Json → Option Json
| .string text =>
    if toolOutputLimit < text.utf8ByteSize then
      (sliceTo text toolOutputLimit).map fun head =>
        .string (head ++
          truncationNote
            (text.utf8ByteSize - toolOutputLimit))
    else some (.string text)
| .object fields => (truncateFields fields).map .object
| .array items => (truncateItems items).map .array
| value => some value

def truncateItems : List Json → Option (List Json)
| [] => some []
| item :: rest => do
    let item ← truncateToolOutput item
    let rest ← truncateItems rest
    some (item :: rest)

def truncateFields :
    List (String × Json) → Option (List (String × Json))
| [] => some []
| (key, value) :: rest => do
    let value ← truncateToolOutput value
    let rest ← truncateFields rest
    some ((key, value) :: rest)

end

/- A text as it is, or an initial part of it and the note. -/
inductive TextTruncates (text : String) : String → Prop where
  | short (hShort : text.utf8ByteSize ≤ toolOutputLimit) :
      TextTruncates text text
  | long {head rest : String}
      (hLong : toolOutputLimit < text.utf8ByteSize)
      (hPart : text = head ++ rest)
      (hHead : head.utf8ByteSize ≤ toolOutputLimit) :
      TextTruncates text
        (head ++
          truncationNote (text.utf8ByteSize - toolOutputLimit))

/-
  The output has the keys, the lengths and the other leaves of
  the value, and its texts are truncated.
-/
inductive Truncates : Json → Json → Prop where
  | null : Truncates .null .null
  | bool (value : Bool) : Truncates (.bool value) (.bool value)
  | number (value : JsonNumber) :
      Truncates (.number value) (.number value)
  | string {text out : String}
      (hText : TextTruncates text out) :
      Truncates (.string text) (.string out)
  | array {items outs : List Json}
      (hItems : List.Forall₂ Truncates items outs) :
      Truncates (.array items) (.array outs)
  | object {fields outs : List (String × Json)}
      (hKeys : fields.map Prod.fst = outs.map Prod.fst)
      (hValues :
        List.Forall₂ Truncates (fields.map Prod.snd)
          (outs.map Prod.snd)) :
      Truncates (.object fields) (.object outs)

namespace Json

mutual

/- The texts in a value, keys apart. -/
def texts : Json → List String
| .string text => [text]
| .array items => textsOfItems items
| .object fields => textsOfFields fields
| _ => []

def textsOfItems : List Json → List String
| [] => []
| item :: rest => texts item ++ textsOfItems rest

def textsOfFields : List (String × Json) → List String
| [] => []
| (_, value) :: rest => texts value ++ textsOfFields rest

end

end Json

/- The limit is a boundary of the text if it is long. -/
def IsCuttable (text : String) : Prop :=
  toolOutputLimit < text.utf8ByteSize →
    IsBoundary text toolOutputLimit

section Truncations

variable {value out : Json}
variable {text : String}

/- A text is truncated, or it panics. -/
theorem truncate_string :
    (∃ out, truncateToolOutput (.string text) =
          some (.string out) ∧
        TextTruncates text out) ∨
      (truncateToolOutput (.string text) = none ∧
        ¬IsCuttable text) := by
  unfold truncateToolOutput
  by_cases hLong : toolOutputLimit < text.utf8ByteSize
  · rw [if_pos hLong]
    cases hSlice : sliceTo text toolOutputLimit with
    | some head =>
        rcases sliceTo_spec hSlice with ⟨hSize, rest, hPart⟩
        exact .inl ⟨_, rfl, .long hLong hPart hSize.le⟩
    | none =>
        right
        refine ⟨rfl, ?_⟩
        intro hCuttable
        have hSome := sliceTo_isSome.mpr (hCuttable hLong)
        rw [hSlice] at hSome
        cases hSome
  · rw [if_neg hLong]
    exact .inl ⟨_, rfl, .short (Nat.le_of_not_lt hLong)⟩

theorem isCuttable_of_truncates
    (hSome :
      (truncateToolOutput (.string text)).isSome = true) :
    IsCuttable text := by
  intro hLong
  unfold truncateToolOutput at hSome
  rw [if_pos hLong, Option.isSome_map] at hSome
  exact sliceTo_isSome.mp hSome

mutual

/- What does not panic is truncated. -/
theorem truncateToolOutput_truncates
    (value : Json) :
    ∀ out, truncateToolOutput value = some out →
      Truncates value out := by
  intro out hOut
  cases value with
  | null =>
      cases hOut
      exact .null
  | bool value =>
      cases hOut
      exact .bool value
  | number value =>
      cases hOut
      exact .number value
  | string text =>
      rcases @truncate_string text with
        ⟨more, hMore, hText⟩ | ⟨hNone, _⟩
      · rw [hMore] at hOut
        cases hOut
        exact .string hText
      · rw [hNone] at hOut
        cases hOut
  | array items =>
      unfold truncateToolOutput at hOut
      rw [Option.map_eq_some_iff] at hOut
      rcases hOut with ⟨outs, hOuts, hSame⟩
      subst hSame
      exact .array (truncateItems_truncates items outs hOuts)
  | object fields =>
      unfold truncateToolOutput at hOut
      rw [Option.map_eq_some_iff] at hOut
      rcases hOut with ⟨outs, hOuts, hSame⟩
      subst hSame
      rcases truncateFields_truncates fields outs hOuts with
        ⟨hKeys, hValues⟩
      exact .object hKeys hValues

theorem truncateItems_truncates
    (items : List Json) :
    ∀ outs, truncateItems items = some outs →
      List.Forall₂ Truncates items outs := by
  intro outs hOuts
  cases items with
  | nil =>
      cases hOuts
      exact .nil
  | cons item rest =>
      unfold truncateItems at hOuts
      simp only [Option.bind_eq_bind, Option.bind_eq_some_iff,
        Option.some.injEq] at hOuts
      rcases hOuts with ⟨head, hHead, tail, hTail, hSame⟩
      subst hSame
      exact .cons (truncateToolOutput_truncates item head hHead)
        (truncateItems_truncates rest tail hTail)

theorem truncateFields_truncates
    (fields : List (String × Json)) :
    ∀ outs, truncateFields fields = some outs →
      fields.map Prod.fst = outs.map Prod.fst ∧
        List.Forall₂ Truncates (fields.map Prod.snd)
          (outs.map Prod.snd) := by
  intro outs hOuts
  cases fields with
  | nil =>
      cases hOuts
      exact ⟨rfl, .nil⟩
  | cons field rest =>
      rcases field with ⟨key, value⟩
      unfold truncateFields at hOuts
      simp only [Option.bind_eq_bind, Option.bind_eq_some_iff,
        Option.some.injEq] at hOuts
      rcases hOuts with ⟨head, hHead, tail, hTail, hSame⟩
      subst hSame
      rcases truncateFields_truncates rest tail hTail with
        ⟨hKeys, hValues⟩
      refine ⟨congrArg (key :: ·) hKeys, ?_⟩
      exact .cons (truncateToolOutput_truncates value head hHead)
        hValues

end

mutual

/- It panics exactly at a text that cannot be cut. -/
theorem truncateToolOutput_isSome
    (value : Json) :
    (truncateToolOutput value).isSome = true ↔
      ∀ text ∈ value.texts, IsCuttable text := by
  cases value with
  | null => simp [truncateToolOutput, Json.texts]
  | bool value => simp [truncateToolOutput, Json.texts]
  | number value => simp [truncateToolOutput, Json.texts]
  | string text =>
      simp only [Json.texts, List.forall_mem_singleton]
      refine ⟨isCuttable_of_truncates, ?_⟩
      intro hCuttable
      rcases @truncate_string text with
        ⟨more, hMore, _⟩ | ⟨_, hNot⟩
      · rw [hMore]
        rfl
      · exact (hNot hCuttable).elim
  | array items =>
      unfold truncateToolOutput Json.texts
      rw [Option.isSome_map]
      exact truncateItems_isSome items
  | object fields =>
      unfold truncateToolOutput Json.texts
      rw [Option.isSome_map]
      exact truncateFields_isSome fields

theorem truncateItems_isSome
    (items : List Json) :
    (truncateItems items).isSome = true ↔
      ∀ text ∈ Json.textsOfItems items, IsCuttable text := by
  cases items with
  | nil => simp [truncateItems, Json.textsOfItems]
  | cons item rest =>
      unfold truncateItems Json.textsOfItems
      rw [List.forall_mem_append,
        ← truncateToolOutput_isSome item,
        ← truncateItems_isSome rest]
      cases truncateToolOutput item with
      | none => simp
      | some head =>
          cases truncateItems rest <;> simp

theorem truncateFields_isSome
    (fields : List (String × Json)) :
    (truncateFields fields).isSome = true ↔
      ∀ text ∈ Json.textsOfFields fields,
        IsCuttable text := by
  cases fields with
  | nil => simp [truncateFields, Json.textsOfFields]
  | cons field rest =>
      rcases field with ⟨key, value⟩
      unfold truncateFields Json.textsOfFields
      rw [List.forall_mem_append,
        ← truncateToolOutput_isSome value,
        ← truncateFields_isSome rest]
      cases truncateToolOutput value with
      | none => simp
      | some head =>
          cases truncateFields rest <;> simp

end

/-
  A value is truncated as it should be exactly when the limit
  is a boundary of each of its long texts.
-/
theorem truncateToolOutput_iff
    (value : Json) :
    (∃ out, truncateToolOutput value = some out ∧
        Truncates value out) ↔
      ∀ text ∈ value.texts,
        toolOutputLimit < text.utf8ByteSize →
          IsBoundary text toolOutputLimit := by
  constructor
  · intro hTruncated
    rcases hTruncated with ⟨out, hOut, _⟩
    apply (truncateToolOutput_isSome value).mp
    rw [hOut]
    rfl
  · intro hCuttable
    have hSome :=
      (truncateToolOutput_isSome value).mpr hCuttable
    rcases Option.isSome_iff_exists.mp hSome with ⟨out, hOut⟩
    exact ⟨out, hOut,
      truncateToolOutput_truncates value out hOut⟩

end Truncations

------------------------------------------------------------
-- A Text That Panics
------------------------------------------------------------

theorem utf8ByteSize_replicate
    (char : Char)
    (count : Nat) :
    (String.ofList
        (List.replicate count char)).utf8ByteSize =
      count * char.utf8Size := by
  induction count with
  | zero => simp
  | succ count ih =>
      rw [List.replicate_succ', String.ofList_append,
        String.utf8ByteSize_append, ih]
      simp [Nat.succ_mul]

/- A text of three bytes a character, beyond the limit. -/
def euros : String :=
  String.ofList (List.replicate 21846 '€')

theorem euros_not_boundary :
    ¬IsBoundary euros toolOutputLimit := by
  unfold IsBoundary euros
  rw [String.Pos.Raw.isValid_ofList]
  rintro ⟨taken, hBytes⟩
  rw [List.take_replicate, utf8ByteSize_replicate] at hBytes
  have hWidth : '€'.utf8Size = 3 := by decide
  rw [hWidth] at hBytes
  simp only [toolOutputLimit] at hBytes
  omega

/- A text of euro signs that is too long cannot be cut. -/
theorem euros_panic :
    truncateToolOutput (.string euros) = none ∧
      ¬(∀ value : Json, ∃ out,
        truncateToolOutput value = some out ∧
          Truncates value out) := by
  have hLong : toolOutputLimit < euros.utf8ByteSize := by
    unfold euros
    rw [utf8ByteSize_replicate]
    decide
  have hNone : truncateToolOutput (.string euros) = none := by
    unfold truncateToolOutput sliceTo
    rw [if_pos hLong, dif_neg euros_not_boundary]
    rfl
  refine ⟨hNone, ?_⟩
  intro hAll
  rcases hAll (.string euros) with ⟨out, hOut, _⟩
  rw [hNone] at hOut
  cases hOut

end RainEngine
