import RainEngine.Shell.Tokens
import RainEngine.Texts.Readers

/-
  This file reads the text of shell scripts into trees. Each
  production of the grammar is one reader. It calls the
  readers of nested and of later parts, and each of them only
  after it has taken a character.

  Key definitions include:
    * `Readers`
    * `word`
    * `command`
    * `script`
    * `Parses`
    * `read`
-/

namespace RainEngine.Shell

/- The text, and the here-documents that are still to come. -/
structure Input where
  text : List Char
  pending : List HereDocument

abbrev Reading (α : Type) := Texts.Reader Input α

------------------------------------------------------------
-- Taking Text
------------------------------------------------------------

def refuse {α : Type} : Reading α :=
  fun _ => none

def look : Reading (List Char) :=
  fun s => some (s.text, s)

def take (written : List Char) : Reading Unit :=
  fun s =>
    if written.isPrefixOf s.text then
      some ((),
        { s with text := s.text.drop written.length })
    else none

/- Take a token, which is not empty. -/
def token (written : List Char) : Reading Unit :=
  if written = [] then refuse else take written

def blanks : Reading (List Char) := do
  let text ← look
  take (gap text)
  pure (gap text)

def expect (name : Keyword) : Reading (List Char) := do
  let text ← look
  match keyword text with
  | none => refuse
  | some (other, written) =>
      if other = name then do
        token written
        pure written
      else refuse

/- Read a text of its own, to its end or only its front. -/
def inside {α : Type} (whole : Bool) (p : Reading α)
    (text : List Char) :
    Reading α :=
  fun s =>
    match p ⟨text, []⟩ with
    | none => none
    | some (a, s') =>
        if whole && s'.text ≠ [] then none else some (a, s)

/- Read a script of its own, with its own here-documents. -/
def apart {α : Type} (p : Reading α) : Reading α :=
  fun s =>
    (p { s with pending := [] }).map fun read =>
      (read.1, { read.2 with pending := s.pending })

def push (document : HereDocument) : Reading Unit :=
  fun s =>
    some ((), { s with pending := s.pending ++ [document] })

def settle : Reading (List HereDocument) :=
  fun s => some (s.pending, { s with pending := [] })

------------------------------------------------------------
-- Calls
------------------------------------------------------------

/- Which commands may come: all, none negated, compound. -/
inductive CommandKind where
  | pipeline
  | piped
  | compound
deriving DecidableEq

/- How a list of commands goes on. -/
structure ListMode where
  oneLine : Bool
  needed : Bool
  breaks : Bool
  kind : CommandKind

namespace ListMode

/- The list of a compound command. -/
def body : ListMode := ⟨false, true, true, .pipeline⟩

/- A list that may be empty. -/
def optional : ListMode := ⟨false, false, true, .pipeline⟩

/- A line of a program. -/
def line : ListMode := ⟨true, false, true, .pipeline⟩

/- How it goes on after an operator, if it does. -/
def next
    (mode : ListMode)
    (text : List Char) :
    Operator → Option ListMode
| .andIf | .orIf =>
    some ⟨mode.oneLine, true, true, .pipeline⟩
| .pipe => some ⟨mode.oneLine, true, true, .piped⟩
| .semicolon | .background =>
    some ⟨mode.oneLine, false, !mode.oneLine, .pipeline⟩
| .none =>
    if !mode.oneLine && text.head? = some '\n' then
      some ⟨false, false, true, .pipeline⟩
    else none

end ListMode

/- The readers that are called after a character is taken. -/
structure Readers where
  word : Context → Reading Word
  elements : Mode → Reading Elements
  linebreak : Reading Linebreak
  command : CommandKind → Reading Command
  otherwise : Reading Otherwise
  items : Reading Items
  script : ListMode → Reading Script

section Productions

variable (R : Readers)

------------------------------------------------------------
-- Words
------------------------------------------------------------

def part (context : Context) : Reading Part := do
  let text ← look
  match context.opening text with
  | .nothing => refuse
  | .joined => do
      take ['\\', '\n']
      pure .joined
  | .escaped c => do
      take ['\\', c]
      pure (.escaped c)
  | .single => do
      take ['\'']
      let text ← look
      take (text.takeWhile (· ≠ '\''))
      take ['\'']
      pure (.single (text.takeWhile (· ≠ '\'')))
  | .double => do
      take ['"']
      let word ← R.word .double
      take ['"']
      pure (.double word)
  | .backquote => do
      take ['`']
      let text ← look
      take (backquoted text)
      let script ← inside false (R.script .optional)
        (unescape context.inDouble (backquoted text))
      take ['`']
      pure (.backquoted (backquoted text) script)
  | .arithmetic written => do
      token written
      let word ← R.word (.arithmetic 0)
      let text ← look
      match lexeme [')', ')'] text with
      | none => refuse
      | some closing => do
          take closing
          pure (.arithmetic written word closing)
  | .substitution written => do
      token written
      let script ← apart (R.script .optional)
      take [')']
      pure (.substitution written script)
  | .braced written => do
      token written
      let word ← R.word context.inner
      take ['}']
      pure (.braced written word)
  | .parameter written => do
      token written
      pure (.parameter written)
  | .plain c => do
      take [c]
      pure (.plain c)

def word (context : Context) : Reading Word := do
  let text ← look
  if context.ends text then pure .nil
  else do
    let part ← part R context
    let rest ← R.word (context.after part)
    pure (.cons part rest)

/- A word that is not empty. -/
def someWord : Reading Word := do
  let word ← word R .bare
  match word with
  | .nil => refuse
  | .cons part rest => pure (.cons part rest)

------------------------------------------------------------
-- Lists Of Words
------------------------------------------------------------

def elements (mode : Mode) : Reading Elements := do
  let gap ← blanks
  let text ← look
  match mode.ahead text with
  | .stop => pure (.nil gap)
  | .refused => refuse
  | .bar => do
      take ['|']
      let rest ← R.elements .pattern
      pure (.cons gap .bar rest)
  | .redirect number name written => do
      take number
      token written
      let between ← blanks
      let target ← someWord R
      if name = ['<', '<'] || name = ['<', '<', '-'] then do
        push (.of name target)
        let rest ← R.elements mode
        pure (.cons gap
          (.hereDocument number written between target) rest)
      else do
        let rest ← R.elements mode
        pure (.cons gap
          (.redirect number written between target) rest)
  | .word => do
      let word ← someWord R
      if mode = .start && word.assigns then do
        let rest ← R.elements (mode.after true)
        pure (.cons gap (.assignment word) rest)
      else do
        let rest ← R.elements (mode.after false)
        pure (.cons gap (.word word) rest)

------------------------------------------------------------
-- Newlines
------------------------------------------------------------

/- The body of a here-document, which is already taken. -/
def documentBody
    (document : HereDocument)
    (body : List Char) :
    Reading Word :=
  if document.quoted then pure (.ofText body)
  else inside true (R.word .document) body

def bodies : List HereDocument → Reading Word
| [] => pure .nil
| document :: documents => do
    let text ← look
    let body := (document.split [] text).1
    let ending := (document.split [] text).2
    take body
    let word ← documentBody R document body
    take ending
    let rest ← bodies documents
    pure (word.append ((Word.ofText ending).append rest))

def newline (gap : List Char) : Reading Linebreak := do
  take ['\n']
  let documents ← settle
  let bodies ← bodies R documents
  let rest ← R.linebreak
  pure (.cons gap bodies rest)

def linebreak : Reading Linebreak := do
  let gap ← blanks
  let text ← look
  if text.head? = some '\n' then newline R gap
  else pure (.nil gap)

------------------------------------------------------------
-- Commands
------------------------------------------------------------

/- A function, from the parentheses after its name on. -/
def function (header : Elements) : Reading Command := do
  take ['(']
  let gap ← blanks
  take [')']
  let lead ← R.linebreak
  let body ← R.command .compound
  pure (.function header gap lead body)

/- The name, if a command has but one word. -/
def Elements.name? : Elements → Option Word
| .cons _ (.word word) (.nil _) => some word
| _ => none

def simple : Reading Command := do
  let header ← elements R .start
  match header with
  | .nil _ => refuse
  | .cons gap element rest => do
      let text ← look
      if text.head? = some '(' then
        if (Elements.cons gap element rest).name?.any
            fun word => word.isPlain && isName word.start then
          function R (.cons gap element rest)
        else refuse
      else pure (.simple (.cons gap element rest))

def group (opening : List Char) : Reading Command := do
  token opening
  let body ← R.script .body
  let closing ← expect .closeBrace
  let redirects ← R.elements .redirects
  pure (.group opening body closing redirects)

def subshell : Reading Command := do
  take ['(']
  let body ← R.script .body
  take [')']
  let redirects ← R.elements .redirects
  pure (.subshell body redirects)

def ifClause (opening : List Char) : Reading Command := do
  token opening
  let condition ← R.script .body
  let middle ← expect .thenWord
  let body ← R.script .body
  let otherwise ← R.otherwise
  let redirects ← R.elements .redirects
  pure (.ifThen opening condition middle body otherwise
    redirects)

def loop (opening : List Char) : Reading Command := do
  token opening
  let condition ← R.script .body
  let middle ← expect .doWord
  let body ← R.script .body
  let closing ← expect .done
  let redirects ← R.elements .redirects
  pure (.loop opening condition middle body closing redirects)

/- The keyword `in` and the words, if they are given. -/
def forWords : Reading (List Char × Elements) := do
  let text ← look
  match keyword text with
  | some (.inWord, written) => do
      token written
      let words ← R.elements .words
      pure (written, words)
  | _ => pure ([], .nil [])

/- A semicolon, unless it is the end of an item. -/
def separator : Reading (List Char) := do
  let text ← look
  if (operator text).1 = .semicolon then do
    take [';']
    pure [';']
  else pure []

def forClause (opening : List Char) : Reading Command := do
  token opening
  let gap ← blanks
  let text ← look
  match bareWord text with
  | none => refuse
  | some name =>
      if isName (unjoin name) then do
        take name
        let lead ← R.linebreak
        let (keyword, words) ← forWords R
        let separator ← separator
        let next ← R.linebreak
        let middle ← expect .doWord
        let body ← R.script .body
        let closing ← expect .done
        let redirects ← R.elements .redirects
        pure (.forDo opening gap name lead keyword words
          separator next middle body closing redirects)
      else refuse

def caseClause (opening : List Char) : Reading Command := do
  token opening
  let gap ← blanks
  let subject ← R.word .bare
  if subject.text = [] then refuse
  else do
    let lead ← R.linebreak
    let keyword ← expect .inWord
    let items ← R.items
    let closing ← expect .esac
    let redirects ← R.elements .redirects
    pure (.caseIn opening gap subject lead keyword items
      closing redirects)

def negated (opening : List Char) : Reading Command := do
  token opening
  let gap ← blanks
  let command ← R.command .piped
  pure (.negated opening gap command)

def command (kind : CommandKind) : Reading Command := do
  let text ← look
  match keyword text with
  | some (.bang, written) =>
      if kind = .pipeline then negated R written else refuse
  | some (.openBrace, written) => group R written
  | some (.ifWord, written) => ifClause R written
  | some (.whileWord, written) => loop R written
  | some (.untilWord, written) => loop R written
  | some (.forWord, written) => forClause R written
  | some (.caseWord, written) => caseClause R written
  | some _ => refuse
  | none =>
      if text.head? = some '(' then subshell R
      else if kind = .compound then refuse
      else simple R

def otherwise : Reading Otherwise := do
  let text ← look
  match keyword text with
  | some (.fi, written) => do
      token written
      pure (.endIf written)
  | some (.elseWord, written) => do
      token written
      let body ← R.script .body
      let closing ← expect .fi
      pure (.elseDo written body closing)
  | some (.elifWord, written) => do
      token written
      let condition ← R.script .body
      let middle ← expect .thenWord
      let body ← R.script .body
      let others ← R.otherwise
      pure (.elseIf written condition middle body others)
  | _ => refuse

/- The parenthesis that may stand before the patterns. -/
def itemOpening : Reading (List Char) := do
  let text ← look
  if text.head? = some '(' then do
    take ['(']
    pure ['(']
  else pure []

def items : Reading Items := do
  let lead ← linebreak R
  let text ← look
  if (keyword text).any (·.1 = .esac) then pure (.nil lead)
  else do
    let opening ← itemOpening
    let patterns ← elements R .pattern
    take [')']
    let body ← R.script .optional
    let text ← look
    match lexeme [';', ';'] text with
    | some separator => do
        token separator
        let rest ← R.items
        pure (.cons lead opening patterns body separator rest)
    | none =>
        pure (.cons lead opening patterns body []
          (.nil (.nil [])))

------------------------------------------------------------
-- Scripts
------------------------------------------------------------

/- Whether a command begins a text. -/
def startsCommand (text : List Char) : Bool :=
  match keyword text with
  | some (name, _) => name.opens
  | none =>
      text.head?.any fun c =>
        !isMeta c || c ∈ ['(', '<', '>']

/- The blanks before a command, with newlines or without. -/
def leading (breaks : Bool) : Reading Linebreak :=
  if breaks then linebreak R
  else do
    let gap ← blanks
    pure (.nil gap)

def script (mode : ListMode) : Reading Script := do
  let lead ← leading R mode.breaks
  let text ← look
  if startsCommand text then do
    let command ← command R mode.kind
    let text ← look
    take (operator text).2
    let rest ← look
    match mode.next rest (operator text).1 with
    | some next => do
        let others ← R.script next
        pure (.cons lead command (operator text).2 others)
    | none =>
        pure (.cons lead command (operator text).2
          (.nil (.nil [])))
  else if mode.needed then refuse
  else pure (.nil lead)

def Readers.next : Readers where
  word := Shell.word R
  elements := Shell.elements R
  linebreak := Shell.linebreak R
  command := Shell.command R
  otherwise := Shell.otherwise R
  items := Shell.items R
  script := Shell.script R

------------------------------------------------------------
-- Programs
------------------------------------------------------------

/-
  Each line is read, with the newline that ends it, before the
  next one is.
-/
def lines : Nat → List Char → Program
| 0, text => ⟨[], text⟩
| bound + 1, text =>
    match R.script .line ⟨text, []⟩ with
    | none => ⟨[], text⟩
    | some (script, s) =>
        if s.text = [] then ⟨[(script, .nil [])], []⟩
        else
          match newline R [] s with
          | none => ⟨[], text⟩
          | some (trail, s') =>
              let others := lines bound s'.text
              ⟨(script, trail) :: others.lines, others.unread⟩

end Productions

/- The readers, with a bound on the depth of their calls. -/
def readers : Nat → Readers
| 0 =>
    { word := fun _ => refuse
      elements := fun _ => refuse
      linebreak := refuse
      command := fun _ => refuse
      otherwise := refuse
      items := refuse
      script := fun _ => refuse }
| depth + 1 => (readers depth).next

/-
  The text is read as this program, by readers whose calls go
  deep enough.
-/
def Parses (text : List Char) (program : Program) : Prop :=
  ∃ depth, text.length < depth ∧
    lines (readers depth) depth text = program

/- What a shell reads of the text of a script. -/
def read (text : List Char) : Program :=
  lines (readers (text.length + 1)) (text.length + 1) text

end RainEngine.Shell
