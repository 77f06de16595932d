import RainEngine.Shell.Reading

/-
  This file shows that what a shell reads of a text is the
  tree of that text: the texts of the trees, one after the
  other, are the text again. It also shows that the bound on
  the depth of the calls is never reached: each larger bound
  gives the same trees.

  There is one lemma for each reader. It compares the reader
  for two sets of readers that agree on shorter texts, and
  says that it takes the text of what it reads.

  Key definitions include:
    * `Readers.Agree`

  Key theorems include:
    * `Readers.Agree.next`
    * `readers_agree`
    * `parses_iff`
    * `Parses.text_eq`
-/

namespace RainEngine.Shell

variable {α : Type}
variable {size : Nat}
variable {R R' : Readers}

/- Two readers do the same, and take the text they read. -/
abbrev Reads
    (size : Nat)
    (p q : Reading α)
    (Q : α → List Char → Prop) :
    Prop :=
  Texts.Reads Input.text size p q Q

------------------------------------------------------------
-- Taking Text
------------------------------------------------------------

theorem reads_refuse {Q : α → List Char → Prop} :
    Reads size refuse refuse Q := by
  intro s _
  refine ⟨rfl, ?_⟩
  intro a s' hSome
  cases hSome

theorem reads_look :
    Reads size look look (fun _ taken => taken = []) := by
  intro s _
  refine ⟨rfl, ?_⟩
  intro a s' hSome
  cases hSome
  exact ⟨[], rfl, rfl⟩

theorem reads_take (written : List Char) :
    Reads size (take written) (take written)
      (fun _ taken => written = taken) := by
  intro s _
  refine ⟨rfl, ?_⟩
  intro a s' hSome
  unfold take at hSome
  rw [Option.ite_none_right_eq_some] at hSome
  rcases hSome with ⟨hPrefix, hNext⟩
  cases hNext
  rcases List.isPrefixOf_iff_prefix.mp hPrefix with
    ⟨rest, hText⟩
  refine ⟨written, ?_, rfl⟩
  dsimp only
  rw [← hText, List.drop_left]

/- One character is taken. -/
theorem reads_mark (c : Char) :
    Reads size (take [c]) (take [c])
      (fun _ taken => [c] = taken ∧ 0 < taken.length) := by
  refine (reads_take [c]).mono (Nat.le_refl _) ?_
  intro _ taken hTaken
  rw [← hTaken]
  exact ⟨rfl, Nat.zero_lt_one⟩

theorem reads_token (written : List Char) :
    Reads size (token written) (token written)
      (fun _ taken => written = taken ∧ 0 < taken.length) := by
  unfold token
  apply Texts.Reads.ite
  · intro _
    exact reads_refuse
  · intro hSome
    refine (reads_take written).mono (Nat.le_refl _) ?_
    intro _ taken hTaken
    rw [← hTaken]
    exact ⟨rfl, List.length_pos_iff.mpr hSome⟩

theorem reads_blanks :
    Reads size blanks blanks (fun gap taken => gap = taken) := by
  unfold blanks
  apply reads_look.bindNothing
  intro text
  apply (reads_take _).bindText
  intro _ _ _
  apply Texts.Reads.pure
  rw [List.append_nil]

theorem reads_expect (name : Keyword) :
    Reads size (expect name) (expect name)
      (fun written taken =>
        written = taken ∧ 0 < taken.length) := by
  unfold expect
  apply reads_look.bindNothing
  intro text
  cases keyword text with
  | none => exact reads_refuse
  | some found =>
      apply Texts.Reads.ite
      · intro _
        apply (reads_token _).bindSome
        intro _ _ _ hSome
        apply Texts.Reads.pure
        rw [List.append_nil]
        exact ⟨rfl, hSome⟩
      · intro _
        exact reads_refuse

theorem reads_inside
    {p q : Reading α}
    {Q : α → List Char → Prop}
    {text : List Char}
    {less : Nat}
    (hReads : Reads size p q Q)
    (hShort : text.length < size)
    (whole : Bool) :
    Reads less (inside whole p text) (inside whole q text)
      (fun a taken =>
        taken = [] ∧ (whole = true → Q a text)) := by
  intro s _
  rcases hReads ⟨text, []⟩ hShort with ⟨hSame, hTaken⟩
  unfold inside
  rw [← hSame]
  refine ⟨rfl, ?_⟩
  intro a s' hSome
  cases hRead : p ⟨text, []⟩ with
  | none =>
      rw [hRead] at hSome
      cases hSome
  | some read =>
      rcases hTaken read.1 read.2 hRead with
        ⟨taken, hText, hQ⟩
      rw [hRead] at hSome
      dsimp only at hSome
      rw [Option.ite_none_left_eq_some] at hSome
      rcases hSome with ⟨hWhole, hNext⟩
      cases hNext
      refine ⟨[], rfl, rfl, ?_⟩
      intro hEnds
      have hNil : read.2.text = [] := by
        simpa [hEnds] using hWhole
      change text = taken ++ read.2.text at hText
      rw [hNil, List.append_nil] at hText
      rw [hText]
      exact hQ

theorem reads_apart
    {p q : Reading α}
    {Q : α → List Char → Prop}
    (hReads : Reads size p q Q) :
    Reads size (apart p) (apart q) Q := by
  intro s hShort
  have hHere := hReads { s with pending := [] } hShort
  unfold apart
  rw [← hHere.1]
  refine ⟨rfl, ?_⟩
  intro a s' hSome
  rw [Option.map_eq_some_iff] at hSome
  rcases hSome with ⟨read, hRead, hSame⟩
  cases hSame
  exact hHere.2 read.1 read.2 hRead

theorem reads_push (document : HereDocument) :
    Reads size (push document) (push document)
      (fun _ taken => taken = []) := by
  intro s _
  refine ⟨rfl, ?_⟩
  intro a s' hSome
  cases hSome
  exact ⟨[], rfl, rfl⟩

theorem reads_settle :
    Reads size settle settle (fun _ taken => taken = []) := by
  intro s _
  refine ⟨rfl, ?_⟩
  intro a s' hSome
  cases hSome
  exact ⟨[], rfl, rfl⟩

------------------------------------------------------------
-- Sets Of Readers
------------------------------------------------------------

/-
  On texts shorter than the size the readers do the same, and
  take the text of what they read.
-/
structure Readers.Agree
    (size : Nat)
    (R R' : Readers) :
    Prop where
  word : ∀ context {less}, less ≤ size →
    Reads less (R.word context) (R'.word context)
      (fun word taken => word.text = taken)
  elements : ∀ mode {less}, less ≤ size →
    Reads less (R.elements mode) (R'.elements mode)
      (fun elements taken => elements.text = taken)
  linebreak : ∀ {less}, less ≤ size →
    Reads less R.linebreak R'.linebreak
      (fun lead taken => lead.text = taken)
  command : ∀ kind {less}, less ≤ size →
    Reads less (R.command kind) (R'.command kind)
      (fun command taken => command.text = taken)
  otherwise : ∀ {less}, less ≤ size →
    Reads less R.otherwise R'.otherwise
      (fun others taken => others.text = taken)
  items : ∀ {less}, less ≤ size →
    Reads less R.items R'.items
      (fun items taken => items.text = taken)
  script : ∀ mode {less}, less ≤ size →
    Reads less (R.script mode) (R'.script mode)
      (fun script taken => script.text = taken)

theorem Readers.Agree.mono
    {less : Nat}
    (hAgree : R.Agree size R')
    (hLess : less ≤ size) :
    R.Agree less R' where
  word context {_} hFew :=
    hAgree.word context (hFew.trans hLess)
  elements mode {_} hFew :=
    hAgree.elements mode (hFew.trans hLess)
  linebreak {_} hFew := hAgree.linebreak (hFew.trans hLess)
  command kind {_} hFew :=
    hAgree.command kind (hFew.trans hLess)
  otherwise {_} hFew := hAgree.otherwise (hFew.trans hLess)
  items {_} hFew := hAgree.items (hFew.trans hLess)
  script mode {_} hFew :=
    hAgree.script mode (hFew.trans hLess)

------------------------------------------------------------
-- Words
------------------------------------------------------------

theorem length_append_pos
    {first rest : List Char}
    (hFirst : 0 < first.length) :
    0 < (first ++ rest).length := by
  rw [List.length_append]
  omega

theorem length_unescape (inDouble : Bool) (text : List Char) :
    (unescape inDouble text).length ≤ text.length := by
  fun_induction unescape inDouble text with
  | case1 c rest h ih => simp only [List.length_cons]; omega
  | case2 c rest h ih => simp only [List.length_cons]; omega
  | case3 c rest h ih => simp only [List.length_cons]; omega
  | case4 => exact Nat.le_refl _

/- The texts of what is read stand one after the other. -/
theorem reads_part
    (hAgree : R.Agree size R')
    (context : Context) :
    Reads (size + 1) (part R context) (part R' context)
      (fun part taken =>
        part.text = taken ∧ 0 < taken.length) := by
  unfold part
  apply reads_look.bindNothing
  intro text
  cases context.opening text with
  | nothing => exact reads_refuse
  | joined =>
      apply (reads_take _).bindText
      intro _ _ _
      apply Texts.Reads.pure
      exact ⟨rfl, Nat.zero_lt_succ _⟩
  | escaped c =>
      apply (reads_take _).bindText
      intro _ _ _
      apply Texts.Reads.pure
      exact ⟨rfl, Nat.zero_lt_succ _⟩
  | single =>
      apply (reads_take _).bindText
      intro _ _ _
      apply reads_look.bindNothing
      intro text
      apply (reads_take _).bindText
      intro _ _ _
      apply (reads_take _).bindText
      intro _ _ _
      apply Texts.Reads.pure
      exact ⟨rfl, Nat.zero_lt_succ _⟩
  | double =>
      apply (reads_mark _).bindSome
      intro _ _ _ hOpen
      refine (hAgree.word _ (by omega)).bindText ?_
      intro word _ _
      apply (reads_take _).bindText
      intro _ _ _
      apply Texts.Reads.pure
      exact ⟨rfl, Nat.zero_lt_succ _⟩
  | backquote =>
      apply (reads_mark _).bindSome
      intro _ _ _ hOpen
      apply reads_look.bindNothing
      intro text
      apply (reads_take _).bindText
      intro _ _ _
      have hLength := length_unescape context.inDouble
        (backquoted text)
      refine (reads_inside (hAgree.script _ (Nat.le_refl _))
        (by omega) false).bind ?_
      intro script _ _ _ hInside
      cases hInside.1
      apply (reads_take _).bindText
      intro _ _ _
      apply Texts.Reads.pure
      exact ⟨rfl, Nat.zero_lt_succ _⟩
  | arithmetic written =>
      apply (reads_token _).bindSome
      intro _ _ _ hOpen
      refine (hAgree.word _ (by omega)).bindText ?_
      intro word _ _
      apply reads_look.bindNothing
      intro text
      cases lexeme [')', ')'] text with
      | none => exact reads_refuse
      | some closing =>
          apply (reads_take _).bindText
          intro _ _ _
          apply Texts.Reads.pure
          rw [List.append_nil]
          exact ⟨rfl, length_append_pos hOpen⟩
  | substitution written =>
      apply (reads_token _).bindSome
      intro _ _ _ hOpen
      refine
        (reads_apart (hAgree.script _ (by omega))).bindText ?_
      intro script _ _
      apply (reads_take _).bindText
      intro _ _ _
      apply Texts.Reads.pure
      exact ⟨rfl, length_append_pos hOpen⟩
  | braced written =>
      apply (reads_token _).bindSome
      intro _ _ _ hOpen
      refine (hAgree.word _ (by omega)).bindText ?_
      intro word _ _
      apply (reads_take _).bindText
      intro _ _ _
      apply Texts.Reads.pure
      exact ⟨rfl, length_append_pos hOpen⟩
  | parameter written =>
      apply (reads_token _).bindSome
      intro _ _ _ hOpen
      apply Texts.Reads.pure
      rw [List.append_nil]
      exact ⟨rfl, hOpen⟩
  | plain c =>
      apply (reads_take _).bindText
      intro _ _ _
      apply Texts.Reads.pure
      exact ⟨rfl, Nat.zero_lt_succ _⟩

theorem reads_word
    (hAgree : R.Agree size R')
    (context : Context) :
    Reads (size + 1) (word R context) (word R' context)
      (fun word taken =>
        word.text = taken ∧
          (word ≠ .nil → 0 < taken.length)) := by
  unfold word
  apply reads_look.bindNothing
  intro text
  apply Texts.Reads.ite
  · intro _
    apply Texts.Reads.pure
    exact ⟨rfl, fun hSome => absurd rfl hSome⟩
  · intro _
    apply (reads_part hAgree context).bindSome
    intro part _ hPart hSome
    refine (hAgree.word _ (by omega)).bindText ?_
    intro rest _ _
    apply Texts.Reads.pure
    rw [List.append_nil]
    exact ⟨rfl, fun _ => length_append_pos hSome⟩

theorem reads_someWord (hAgree : R.Agree size R') :
    Reads (size + 1) (someWord R) (someWord R')
      (fun word taken =>
        word.text = taken ∧ 0 < taken.length) := by
  unfold someWord
  apply (reads_word hAgree .bare).bind
  intro word taken _ _ hWord
  rcases hWord with ⟨hText, hSome⟩
  cases word with
  | nil => exact reads_refuse
  | cons part rest =>
      apply Texts.Reads.pure
      rw [List.append_nil]
      exact ⟨hText, hSome Word.noConfusion⟩

theorem reads_elements
    (hAgree : R.Agree size R')
    (mode : Mode) :
    Reads (size + 1) (elements R mode) (elements R' mode)
      (fun elements taken =>
        elements.text = taken ∧
          (0 < taken.length ∨
            ∃ gap, elements = .nil gap)) := by
  unfold elements
  apply reads_blanks.bindText
  intro gap more hGap
  apply reads_look.bindNothing
  intro text
  have hMore := hAgree.mono (show more ≤ size by omega)
  cases mode.ahead text with
  | stop =>
      apply Texts.Reads.pure
      rw [List.append_nil]
      exact ⟨rfl, Or.inr ⟨gap, rfl⟩⟩
  | refused => exact reads_refuse
  | bar =>
      apply (reads_mark _).bindSome
      intro _ _ _ hOpen
      refine (hMore.elements _ (by omega)).bindText ?_
      intro rest _ _
      apply Texts.Reads.pure
      rw [List.append_nil, List.length_append]
      exact ⟨rfl, Or.inl (Nat.lt_add_left _ (Nat.succ_pos _))⟩
  | redirect number name written =>
      apply (reads_take _).bindText
      intro _ _ _
      apply (reads_token _).bindSome
      intro _ _ _ hOpen
      apply reads_blanks.bindText
      intro between fewer _
      have hFewer := hAgree.mono (show fewer ≤ size by omega)
      apply (reads_someWord hFewer).bindSome
      intro target _ _ _
      apply Texts.Reads.ite
      · intro _
        apply (reads_push _).bindNothing
        intro _
        refine (hAgree.elements _ (by omega)).bindText ?_
        intro rest _ _
        apply Texts.Reads.pure
        rw [List.append_nil]
        refine ⟨?_, Or.inl ?_⟩
        · change gap ++ ((number ++ (written ++
            (between ++ target.text))) ++ rest.text) = _
          rw [List.append_assoc, List.append_assoc,
            List.append_assoc]
        · rw [List.length_append, List.length_append,
            List.length_append]
          omega
      · intro _
        refine (hAgree.elements _ (by omega)).bindText ?_
        intro rest _ _
        apply Texts.Reads.pure
        rw [List.append_nil]
        refine ⟨?_, Or.inl ?_⟩
        · change gap ++ ((number ++ (written ++
            (between ++ target.text))) ++ rest.text) = _
          rw [List.append_assoc, List.append_assoc,
            List.append_assoc]
        · rw [List.length_append, List.length_append,
            List.length_append]
          omega
  | word =>
      apply (reads_someWord hMore).bindSome
      intro word _ _ hSome
      apply Texts.Reads.ite
      · intro _
        refine (hAgree.elements _ (by omega)).bindText ?_
        intro rest _ _
        apply Texts.Reads.pure
        rw [List.append_nil, List.length_append,
          List.length_append]
        exact ⟨rfl, Or.inl (by omega)⟩
      · intro _
        refine (hAgree.elements _ (by omega)).bindText ?_
        intro rest _ _
        apply Texts.Reads.pure
        rw [List.append_nil, List.length_append,
          List.length_append]
        exact ⟨rfl, Or.inl (by omega)⟩

------------------------------------------------------------
-- Newlines
------------------------------------------------------------

/- The text of a body is no longer than what was to read. -/
theorem reads_documentBody
    {body : List Char}
    {less : Nat}
    (hAgree : R.Agree size R')
    (hShort : body.length < size)
    (document : HereDocument) :
    Reads less (documentBody R document body)
      (documentBody R' document body)
      (fun word taken => taken = [] ∧ word.text = body) := by
  unfold documentBody
  apply Texts.Reads.ite
  · intro _
    apply Texts.Reads.pure
    exact ⟨rfl, Word.text_ofText _⟩
  · intro _
    refine (reads_inside (hAgree.word _ (Nat.le_refl _))
      hShort true).mono (Nat.le_refl _) ?_
    intro word taken hRead
    exact ⟨hRead.1, hRead.2 rfl⟩

theorem reads_bodies
    (hAgree : R.Agree size R')
    (documents : List HereDocument) :
    Reads size (bodies R documents) (bodies R' documents)
      (fun bodies taken => bodies.text = taken) := by
  induction documents generalizing size with
  | nil =>
      apply Texts.Reads.pure
      rfl
  | cons document documents ih =>
      unfold bodies
      apply reads_look.bindNothing
      intro text
      apply (reads_take _).bindText
      intro _ _ hBody
      apply (reads_documentBody hAgree (by omega) _).bind
      intro word _ _ hWord hRead
      rcases hRead with ⟨hNil, hText⟩
      cases hNil
      rw [List.length_nil] at hWord
      apply (reads_take _).bindText
      intro _ less hEnding
      have hFewer := hAgree.mono
        (show less + 1 ≤ size by omega)
      apply (ih hFewer).bindText
      intro rest _ _
      apply Texts.Reads.pure
      rw [Word.text_append, Word.text_append, Word.text_ofText,
        hText, List.nil_append, List.append_nil]

theorem reads_newline
    (hAgree : R.Agree size R')
    (gap : List Char) :
    Reads (size + 1) (newline R gap) (newline R' gap)
      (fun lead taken =>
        lead.text = gap ++ taken ∧ 0 < taken.length) := by
  unfold newline
  apply (reads_mark _).bindSome
  intro _ less hLess hOpen
  apply reads_settle.bindNothing
  intro documents
  have hFewer := hAgree.mono (show less + 1 ≤ size by omega)
  apply (reads_bodies hFewer documents).bindText
  intro bodies _ _
  refine (hAgree.linebreak (by omega)).bindText ?_
  intro lead _ _
  apply Texts.Reads.pure
  rw [List.append_nil]
  exact ⟨rfl, Nat.zero_lt_succ _⟩

theorem reads_linebreak (hAgree : R.Agree size R') :
    Reads (size + 1) (linebreak R) (linebreak R')
      (fun lead taken => lead.text = taken) := by
  unfold linebreak
  apply reads_blanks.bindText
  intro gap less hGap
  apply reads_look.bindNothing
  intro text
  apply Texts.Reads.ite
  · intro _
    have hFewer := hAgree.mono (show less ≤ size by omega)
    refine (reads_newline hFewer gap).mono (Nat.le_refl _) ?_
    intro lead taken hTaken
    exact hTaken.1
  · intro _
    apply Texts.Reads.pure
    rw [List.append_nil]
    rfl

------------------------------------------------------------
-- Commands
------------------------------------------------------------

theorem reads_function
    (hAgree : R.Agree size R')
    (header : Elements) :
    Reads (size + 1) (function R header) (function R' header)
      (fun command taken =>
        command.text = header.text ++ taken) := by
  unfold function
  apply (reads_mark _).bindSome
  intro _ _ _ hOpen
  apply reads_blanks.bindText
  intro gap _ _
  apply (reads_take _).bindText
  intro _ _ _
  refine (hAgree.linebreak (by omega)).bindText ?_
  intro lead _ _
  refine (hAgree.command _ (by omega)).bindText ?_
  intro body _ _
  apply Texts.Reads.pure
  rw [List.append_nil]
  rfl

theorem reads_simple (hAgree : R.Agree size R') :
    Reads (size + 1) (simple R) (simple R')
      (fun command taken =>
        command.text = taken ∧ 0 < taken.length) := by
  unfold simple
  apply (reads_elements hAgree .start).bind
  intro header taken less hLess hHeader
  rcases hHeader with ⟨hText, hSome⟩
  cases header with
  | nil gap => exact reads_refuse
  | cons gap element rest =>
      have hLength : 0 < taken.length := by
        rcases hSome with hSome | ⟨other, hNil⟩
        · exact hSome
        · cases hNil
      apply reads_look.bindNothing
      intro text
      apply Texts.Reads.ite
      · intro _
        apply Texts.Reads.ite
        · intro _
          have hFewer := hAgree.mono
            (show less ≤ size by omega)
          refine (reads_function hFewer _).mono
            (Nat.le_refl _) ?_
          intro command more hMore
          rw [hMore, hText, List.length_append]
          exact ⟨rfl, by omega⟩
        · intro _
          exact reads_refuse
      · intro _
        apply Texts.Reads.pure
        rw [List.append_nil]
        exact ⟨hText, hLength⟩

theorem reads_group
    (hAgree : R.Agree size R')
    (opening : List Char) :
    Reads (size + 1) (group R opening) (group R' opening)
      (fun command taken =>
        command.text = taken ∧ 0 < taken.length) := by
  unfold group
  apply (reads_token _).bindSome
  intro _ _ _ hOpen
  refine (hAgree.script _ (by omega)).bindText ?_
  intro body _ _
  apply (reads_expect _).bindSome
  intro closing _ _ _
  refine (hAgree.elements _ (by omega)).bindText ?_
  intro redirects _ _
  apply Texts.Reads.pure
  rw [List.append_nil]
  exact ⟨rfl, length_append_pos hOpen⟩

theorem reads_subshell (hAgree : R.Agree size R') :
    Reads (size + 1) (subshell R) (subshell R')
      (fun command taken =>
        command.text = taken ∧ 0 < taken.length) := by
  unfold subshell
  apply (reads_mark _).bindSome
  intro _ _ _ hOpen
  refine (hAgree.script _ (by omega)).bindText ?_
  intro body _ _
  apply (reads_mark _).bindSome
  intro _ _ _ hClose
  refine (hAgree.elements _ (by omega)).bindText ?_
  intro redirects _ _
  apply Texts.Reads.pure
  rw [List.append_nil]
  exact ⟨rfl, Nat.zero_lt_succ _⟩

theorem reads_ifClause
    (hAgree : R.Agree size R')
    (opening : List Char) :
    Reads (size + 1) (ifClause R opening)
      (ifClause R' opening)
      (fun command taken =>
        command.text = taken ∧ 0 < taken.length) := by
  unfold ifClause
  apply (reads_token _).bindSome
  intro _ _ _ hOpen
  refine (hAgree.script _ (by omega)).bindText ?_
  intro condition _ _
  apply (reads_expect _).bindSome
  intro middle _ _ _
  refine (hAgree.script _ (by omega)).bindText ?_
  intro body _ _
  refine (hAgree.otherwise (by omega)).bindText ?_
  intro others _ _
  refine (hAgree.elements _ (by omega)).bindText ?_
  intro redirects _ _
  apply Texts.Reads.pure
  rw [List.append_nil]
  exact ⟨rfl, length_append_pos hOpen⟩

theorem reads_loop
    (hAgree : R.Agree size R')
    (opening : List Char) :
    Reads (size + 1) (loop R opening) (loop R' opening)
      (fun command taken =>
        command.text = taken ∧ 0 < taken.length) := by
  unfold loop
  apply (reads_token _).bindSome
  intro _ _ _ hOpen
  refine (hAgree.script _ (by omega)).bindText ?_
  intro condition _ _
  apply (reads_expect _).bindSome
  intro middle _ _ _
  refine (hAgree.script _ (by omega)).bindText ?_
  intro body _ _
  apply (reads_expect _).bindSome
  intro closing _ _ _
  refine (hAgree.elements _ (by omega)).bindText ?_
  intro redirects _ _
  apply Texts.Reads.pure
  rw [List.append_nil]
  exact ⟨rfl, length_append_pos hOpen⟩

theorem reads_forWords (hAgree : R.Agree size R') :
    Reads (size + 1) (forWords R) (forWords R')
      (fun read taken => read.1 ++ read.2.text = taken) := by
  unfold forWords
  apply reads_look.bindNothing
  intro text
  rcases keyword text with _ | ⟨name, written⟩
  · apply Texts.Reads.pure
    rfl
  · cases name with
    | inWord =>
        apply (reads_token _).bindSome
        intro _ _ _ hOpen
        refine (hAgree.elements _ (by omega)).bindText ?_
        intro words _ _
        apply Texts.Reads.pure
        rw [List.append_nil]
    | _ =>
        apply Texts.Reads.pure
        rfl

theorem reads_separator :
    Reads size separator separator
      (fun written taken => written = taken) := by
  unfold separator
  apply reads_look.bindNothing
  intro text
  apply Texts.Reads.ite
  · intro _
    apply (reads_take _).bindText
    intro _ _ _
    apply Texts.Reads.pure
    rfl
  · intro _
    apply Texts.Reads.pure
    rfl

theorem reads_forClause
    (hAgree : R.Agree size R')
    (opening : List Char) :
    Reads (size + 1) (forClause R opening)
      (forClause R' opening)
      (fun command taken =>
        command.text = taken ∧ 0 < taken.length) := by
  unfold forClause
  apply (reads_token _).bindSome
  intro _ _ _ hOpen
  apply reads_blanks.bindText
  intro gap _ _
  apply reads_look.bindNothing
  intro text
  cases bareWord text with
  | none => exact reads_refuse
  | some name =>
      apply Texts.Reads.ite
      · intro _
        apply (reads_take _).bindText
        intro _ _ _
        refine (hAgree.linebreak (by omega)).bindText ?_
        intro lead fewer _
        have hFewer := hAgree.mono
          (show fewer ≤ size by omega)
        apply (reads_forWords hFewer).bindText
        intro words _ _
        apply reads_separator.bindText
        intro separator _ _
        refine (hAgree.linebreak (by omega)).bindText ?_
        intro next _ _
        apply (reads_expect _).bindSome
        intro middle _ _ _
        refine (hAgree.script _ (by omega)).bindText ?_
        intro body _ _
        apply (reads_expect _).bindSome
        intro closing _ _ _
        refine (hAgree.elements _ (by omega)).bindText ?_
        intro redirects _ _
        apply Texts.Reads.pure
        rw [List.append_nil, List.append_assoc]
        exact ⟨rfl, length_append_pos hOpen⟩
      · intro _
        exact reads_refuse

theorem reads_caseClause
    (hAgree : R.Agree size R')
    (opening : List Char) :
    Reads (size + 1) (caseClause R opening)
      (caseClause R' opening)
      (fun command taken =>
        command.text = taken ∧ 0 < taken.length) := by
  unfold caseClause
  apply (reads_token _).bindSome
  intro _ _ _ hOpen
  apply reads_blanks.bindText
  intro gap _ _
  refine (hAgree.word _ (by omega)).bindText ?_
  intro subject _ _
  apply Texts.Reads.ite
  · intro _
    exact reads_refuse
  · intro _
    refine (hAgree.linebreak (by omega)).bindText ?_
    intro lead _ _
    apply (reads_expect _).bindSome
    intro keyword _ _ _
    refine (hAgree.items (by omega)).bindText ?_
    intro items _ _
    apply (reads_expect _).bindSome
    intro closing _ _ _
    refine (hAgree.elements _ (by omega)).bindText ?_
    intro redirects _ _
    apply Texts.Reads.pure
    rw [List.append_nil]
    exact ⟨rfl, length_append_pos hOpen⟩

theorem reads_negated
    (hAgree : R.Agree size R')
    (opening : List Char) :
    Reads (size + 1) (negated R opening) (negated R' opening)
      (fun command taken =>
        command.text = taken ∧ 0 < taken.length) := by
  unfold negated
  apply (reads_token _).bindSome
  intro _ _ _ hOpen
  apply reads_blanks.bindText
  intro gap _ _
  refine (hAgree.command _ (by omega)).bindText ?_
  intro command _ _
  apply Texts.Reads.pure
  rw [List.append_nil]
  exact ⟨rfl, length_append_pos hOpen⟩

theorem reads_command
    (hAgree : R.Agree size R')
    (kind : CommandKind) :
    Reads (size + 1) (command R kind) (command R' kind)
      (fun command taken =>
        command.text = taken ∧ 0 < taken.length) := by
  unfold command
  apply reads_look.bindNothing
  intro text
  rcases keyword text with _ | ⟨name, written⟩
  · apply Texts.Reads.ite
    · intro _
      exact reads_subshell hAgree
    · intro _
      apply Texts.Reads.ite
      · intro _
        exact reads_refuse
      · intro _
        exact reads_simple hAgree
  · cases name with
    | bang =>
        apply Texts.Reads.ite
        · intro _
          exact reads_negated hAgree written
        · intro _
          exact reads_refuse
    | openBrace => exact reads_group hAgree written
    | ifWord => exact reads_ifClause hAgree written
    | whileWord => exact reads_loop hAgree written
    | untilWord => exact reads_loop hAgree written
    | forWord => exact reads_forClause hAgree written
    | caseWord => exact reads_caseClause hAgree written
    | _ => exact reads_refuse

theorem reads_otherwise (hAgree : R.Agree size R') :
    Reads (size + 1) (otherwise R) (otherwise R')
      (fun others taken => others.text = taken) := by
  unfold otherwise
  apply reads_look.bindNothing
  intro text
  rcases keyword text with _ | ⟨name, written⟩
  · exact reads_refuse
  · cases name with
    | fi =>
        apply (reads_token _).bindSome
        intro _ _ _ _
        apply Texts.Reads.pure
        rw [List.append_nil]
        rfl
    | elseWord =>
        apply (reads_token _).bindSome
        intro _ _ _ hOpen
        refine (hAgree.script _ (by omega)).bindText ?_
        intro body _ _
        apply (reads_expect _).bindSome
        intro closing _ _ _
        apply Texts.Reads.pure
        rw [List.append_nil]
        rfl
    | elifWord =>
        apply (reads_token _).bindSome
        intro _ _ _ hOpen
        refine (hAgree.script _ (by omega)).bindText ?_
        intro condition _ _
        apply (reads_expect _).bindSome
        intro middle _ _ _
        refine (hAgree.script _ (by omega)).bindText ?_
        intro body _ _
        refine (hAgree.otherwise (by omega)).bindText ?_
        intro others _ _
        apply Texts.Reads.pure
        rw [List.append_nil]
        rfl
    | _ => exact reads_refuse

theorem reads_itemOpening :
    Reads size itemOpening itemOpening
      (fun written taken => written = taken) := by
  unfold itemOpening
  apply reads_look.bindNothing
  intro text
  apply Texts.Reads.ite
  · intro _
    apply (reads_take _).bindText
    intro _ _ _
    apply Texts.Reads.pure
    rfl
  · intro _
    apply Texts.Reads.pure
    rfl

theorem reads_items (hAgree : R.Agree size R') :
    Reads (size + 1) (items R) (items R')
      (fun items taken => items.text = taken) := by
  unfold items
  apply (reads_linebreak hAgree).bindText
  intro lead less _
  apply reads_look.bindNothing
  intro text
  apply Texts.Reads.ite
  · intro _
    apply Texts.Reads.pure
    rw [List.append_nil]
    rfl
  · intro _
    apply reads_itemOpening.bindText
    intro opening fewer _
    have hFewer := hAgree.mono (show fewer ≤ size by omega)
    have hPatterns := (reads_elements hFewer .pattern).mono
      (Nat.le_refl _) fun _ _ hRead => hRead.1
    apply hPatterns.bindText
    intro patterns _ _
    apply (reads_mark _).bindSome
    intro _ _ _ hClose
    refine (hAgree.script _ (by omega)).bindText ?_
    intro body _ _
    apply reads_look.bindNothing
    intro text
    cases lexeme [';', ';'] text with
    | none =>
        apply Texts.Reads.pure
        rfl
    | some separator =>
        apply (reads_token _).bindSome
        intro _ _ _ _
        refine (hAgree.items (by omega)).bindText ?_
        intro rest _ _
        apply Texts.Reads.pure
        rw [List.append_nil]
        rfl

------------------------------------------------------------
-- Scripts
------------------------------------------------------------

theorem reads_leading
    (hAgree : R.Agree size R')
    (breaks : Bool) :
    Reads (size + 1) (leading R breaks) (leading R' breaks)
      (fun lead taken => lead.text = taken) := by
  unfold leading
  apply Texts.Reads.ite
  · intro _
    exact reads_linebreak hAgree
  · intro _
    apply reads_blanks.bindText
    intro gap _ _
    apply Texts.Reads.pure
    rw [List.append_nil]
    rfl

theorem reads_script
    (hAgree : R.Agree size R')
    (mode : ListMode) :
    Reads (size + 1) (script R mode) (script R' mode)
      (fun script taken => script.text = taken) := by
  unfold script
  apply (reads_leading hAgree _).bindText
  intro lead less _
  apply reads_look.bindNothing
  intro text
  apply Texts.Reads.ite
  · intro _
    have hFewer := hAgree.mono (show less ≤ size by omega)
    apply (reads_command hFewer _).bindSome
    intro command _ _ hSome
    apply reads_look.bindNothing
    intro text
    apply (reads_take _).bindText
    intro _ _ _
    apply reads_look.bindNothing
    intro rest
    cases mode.next rest (operator text).1 with
    | none =>
        apply Texts.Reads.pure
        rfl
    | some next =>
        refine (hAgree.script _ (by omega)).bindText ?_
        intro others _ _
        apply Texts.Reads.pure
        rw [List.append_nil]
        rfl
  · intro _
    apply Texts.Reads.ite
    · intro _
      exact reads_refuse
    · intro _
      apply Texts.Reads.pure
      rw [List.append_nil]
      rfl

/- One more call is enough for texts of one more character. -/
theorem Readers.Agree.next (hAgree : R.Agree size R') :
    R.next.Agree (size + 1) R'.next where
  word context {_} hLess :=
    (reads_word hAgree context).mono hLess fun _ _ h => h.1
  elements mode {_} hLess :=
    (reads_elements hAgree mode).mono hLess fun _ _ h => h.1
  linebreak {_} hLess :=
    (reads_linebreak hAgree).mono hLess fun _ _ h => h
  command kind {_} hLess :=
    (reads_command hAgree kind).mono hLess fun _ _ h => h.1
  otherwise {_} hLess :=
    (reads_otherwise hAgree).mono hLess fun _ _ h => h
  items {_} hLess :=
    (reads_items hAgree).mono hLess fun _ _ h => h
  script mode {_} hLess :=
    (reads_script hAgree mode).mono hLess fun _ _ h => h

/- There is no text of negative length. -/
theorem reads_zero
    {p q : Reading α}
    {Q : α → List Char → Prop}
    {less : Nat}
    (hLess : less ≤ 0) :
    Reads less p q Q := by
  intro s hShort
  omega

theorem readers_agree
    {depth other : Nat}
    (hDepth : size ≤ depth)
    (hOther : size ≤ other) :
    (readers depth).Agree size (readers other) := by
  induction size generalizing depth other with
  | zero =>
      exact
        { word := fun _ => reads_zero
          elements := fun _ => reads_zero
          linebreak := reads_zero
          command := fun _ => reads_zero
          otherwise := reads_zero
          items := reads_zero
          script := fun _ => reads_zero }
  | succ size ih =>
      cases depth with
      | zero => omega
      | succ depth =>
          cases other with
          | zero => omega
          | succ other =>
              exact (ih (by omega) (by omega)).next

------------------------------------------------------------
-- Programs
------------------------------------------------------------

/- The lines are read off the text one after the other. -/
theorem lines_agree
    {text : List Char}
    {bound other : Nat}
    (hAgree : R.Agree size R')
    (hShort : text.length < size)
    (hBound : text.length < bound)
    (hOther : text.length < other) :
    lines R bound text = lines R' other text ∧
      (lines R bound text).text = text := by
  induction bound generalizing text other with
  | zero => cases hBound
  | succ bound ih =>
      cases other with
      | zero => cases hOther
      | succ other =>
          rcases hAgree.script .line (Nat.le_refl _)
              ⟨text, []⟩ hShort with ⟨hSame, hTaken⟩
          unfold lines
          rw [← hSame]
          rcases hScript : R.script .line ⟨text, []⟩ with
            _ | ⟨script, s⟩
          · exact ⟨rfl, rfl⟩
          · rcases hTaken _ _ hScript with
              ⟨taken, hText, hTree⟩
            cases hTree
            change text = script.text ++ s.text at hText
            dsimp only
            by_cases hEnd : s.text = []
            · rw [if_pos hEnd, if_pos hEnd]
              refine ⟨rfl, ?_⟩
              rw [hText, hEnd]
              simp [Program.text, Linebreak.text]
            · rw [if_neg hEnd, if_neg hEnd]
              have hLonger := congrArg List.length hText
              rw [List.length_append] at hLonger
              rcases reads_newline hAgree [] s (by omega) with
                ⟨hNewline, hMore⟩
              rw [← hNewline]
              rcases hTrail : newline R [] s with
                _ | ⟨trail, s'⟩
              · exact ⟨rfl, rfl⟩
              · rcases hMore _ _ hTrail with
                  ⟨more, hRest, hLead, hSome⟩
                have hShorter := congrArg List.length hRest
                rw [List.length_append] at hShorter
                rcases @ih s'.text other (by omega) (by omega)
                  (by omega) with ⟨hOthers, hOthersText⟩
                dsimp only
                rw [← hOthers]
                refine ⟨rfl, ?_⟩
                unfold Program.text at hOthersText ⊢
                rw [List.flatMap_cons, List.append_assoc,
                  hOthersText, hText, hRest, hLead]
                simp

/- No readers read anything else. -/
theorem parses_iff
    {text : List Char}
    {program : Program} :
    Parses text program ↔ program = read text := by
  constructor
  · intro hParses
    rcases hParses with ⟨depth, hDepth, hLines⟩
    have hAgree : (readers depth).Agree (text.length + 1)
        (readers (text.length + 1)) :=
      readers_agree hDepth (Nat.le_refl _)
    rw [← hLines]
    exact (lines_agree hAgree (Nat.lt_succ_self _) hDepth
      (Nat.lt_succ_self _)).1
  · intro hRead
    exact ⟨text.length + 1, Nat.lt_succ_self _, hRead.symm⟩

/- The whole text is in what is read and what is not. -/
theorem Parses.text_eq
    {text : List Char}
    {program : Program}
    (hParses : Parses text program) :
    program.text = text := by
  rcases hParses with ⟨depth, hDepth, hLines⟩
  rw [← hLines]
  exact (lines_agree
    (readers_agree (Nat.le_refl depth) (Nat.le_refl depth))
    hDepth hDepth hDepth).2

/- The names of all commands, wherever they stand. -/
example :
    (read ("if a; then b \"$(c)\" \x60d\x60; fi && e | f <<X\n" ++
        "$(g)\nX\nh() \x7b i; \x7d").toList).commands.map
      (fun words => words.head?.bind Word.literal) =
    [['a'], ['b'], ['c'], ['d'], ['e'], ['f'], ['g'],
      ['i']].map some := by
  decide +kernel

end RainEngine.Shell
