import Mathlib.Data.List.Basic
import Mathlib.Data.String.Basic

/-
  This file defines the syntax of shell scripts: the tree of a
  script, with the blanks between its tokens, the text it is
  the tree of, and its simple commands. These include the
  commands in compound commands, in the substitutions inside
  words, and in the bodies of here-documents.

  Where a token has several characters, the tree keeps them as
  they are written, since lines may be joined inside of it.

  Key definitions include:
    * `Word`
    * `Command`
    * `Script`
    * `Script.text`
    * `Script.commands`
    * `Word.literal`
    * `Starts`
-/

namespace RainEngine.Shell

------------------------------------------------------------
-- Syntax
------------------------------------------------------------

mutual

/- A part of a word. -/
inductive Part where
  | plain (c : Char)
  | joined
  | escaped (c : Char)
  | single (text : List Char)
  | double (word : Word)
  | parameter (written : List Char)
  | braced (opening : List Char) (word : Word)
  | arithmetic (opening : List Char) (word : Word)
      (closing : List Char)
  | substitution (opening : List Char) (script : Script)
  | backquoted (written : List Char) (script : Script)

inductive Word where
  | nil
  | cons (part : Part) (rest : Word)

/- A bar stands between the patterns of a `case`. -/
inductive Element where
  | word (word : Word)
  | assignment (word : Word)
  | redirect (number operator gap : List Char)
      (target : Word)
  | hereDocument (number operator gap : List Char)
      (delimiter : Word)
  | bar

inductive Elements where
  | nil (gap : List Char)
  | cons (gap : List Char) (element : Element)
      (rest : Elements)

/-
  Newlines, each after some blanks. It is followed by the
  bodies of the here-documents of its line.
-/
inductive Linebreak where
  | nil (gap : List Char)
  | cons (gap : List Char) (bodies : Word)
      (rest : Linebreak)

inductive Command where
  | simple (elements : Elements)
  | negated (opening gap : List Char) (command : Command)
  | group (opening : List Char) (body : Script)
      (closing : List Char) (redirects : Elements)
  | subshell (body : Script) (redirects : Elements)
  | ifThen (opening : List Char) (condition : Script)
      (middle : List Char) (body : Script)
      (otherwise : Otherwise) (redirects : Elements)
  | loop (opening : List Char) (condition : Script)
      (middle : List Char) (body : Script)
      (closing : List Char) (redirects : Elements)
  | forDo (opening gap name : List Char)
      (lead : Linebreak) (keyword : List Char)
      (words : Elements) (separator : List Char)
      (next : Linebreak) (middle : List Char)
      (body : Script) (closing : List Char)
      (redirects : Elements)
  | caseIn (opening gap : List Char) (subject : Word)
      (lead : Linebreak) (keyword : List Char)
      (items : Items) (closing : List Char)
      (redirects : Elements)
  | function (header : Elements) (gap : List Char)
      (lead : Linebreak) (body : Command)

inductive Otherwise where
  | endIf (closing : List Char)
  | elseDo (opening : List Char) (body : Script)
      (closing : List Char)
  | elseIf (opening : List Char) (condition : Script)
      (middle : List Char) (body : Script)
      (otherwise : Otherwise)

inductive Items where
  | nil (lead : Linebreak)
  | cons (lead : Linebreak) (opening : List Char)
      (patterns : Elements) (body : Script)
      (separator : List Char) (rest : Items)

/- A list of commands, each with the operator after it. -/
inductive Script where
  | nil (lead : Linebreak)
  | cons (lead : Linebreak) (command : Command)
      (operator : List Char) (rest : Script)

end

/-
  A shell reads a line of commands, runs it, and goes on with
  the next one. It stops at a line it cannot read.
-/
structure Program where
  lines : List (Script × Linebreak)
  unread : List Char

------------------------------------------------------------
-- Text
------------------------------------------------------------

mutual

def Part.text : Part → List Char
| .plain c => [c]
| .joined => ['\\', '\n']
| .escaped c => ['\\', c]
| .single text => '\'' :: (text ++ ['\''])
| .double word => '"' :: (word.text ++ ['"'])
| .parameter written => written
| .braced opening word => opening ++ (word.text ++ ['}'])
| .arithmetic opening word closing =>
    opening ++ (word.text ++ closing)
| .substitution opening script =>
    opening ++ (script.text ++ [')'])
| .backquoted written _ => '`' :: (written ++ ['`'])

def Word.text : Word → List Char
| .nil => []
| .cons part rest => part.text ++ rest.text

def Element.text : Element → List Char
| .word word => word.text
| .assignment word => word.text
| .redirect number operator gap target =>
    number ++ (operator ++ (gap ++ target.text))
| .hereDocument number operator gap delimiter =>
    number ++ (operator ++ (gap ++ delimiter.text))
| .bar => ['|']

def Elements.text : Elements → List Char
| .nil gap => gap
| .cons gap element rest =>
    gap ++ (element.text ++ rest.text)

def Linebreak.text : Linebreak → List Char
| .nil gap => gap
| .cons gap bodies rest =>
    gap ++ ('\n' :: (bodies.text ++ rest.text))

def Command.text : Command → List Char
| .simple elements => elements.text
| .negated opening gap command =>
    opening ++ (gap ++ command.text)
| .group opening body closing redirects =>
    opening ++ (body.text ++ (closing ++ redirects.text))
| .subshell body redirects =>
    '(' :: (body.text ++ (')' :: redirects.text))
| .ifThen opening condition middle body otherwise
    redirects =>
    opening ++ (condition.text ++ (middle ++ (body.text ++
      (otherwise.text ++ redirects.text))))
| .loop opening condition middle body closing redirects =>
    opening ++ (condition.text ++ (middle ++ (body.text ++
      (closing ++ redirects.text))))
| .forDo opening gap name lead keyword words separator next
    middle body closing redirects =>
    opening ++ (gap ++ (name ++ (lead.text ++ (keyword ++
      (words.text ++ (separator ++ (next.text ++ (middle ++
        (body.text ++ (closing ++ redirects.text))))))))))
| .caseIn opening gap subject lead keyword items closing
    redirects =>
    opening ++ (gap ++ (subject.text ++ (lead.text ++
      (keyword ++ (items.text ++ (closing ++
        redirects.text))))))
| .function header gap lead body =>
    header.text ++ ('(' :: (gap ++ (')' ::
      (lead.text ++ body.text))))

def Otherwise.text : Otherwise → List Char
| .endIf closing => closing
| .elseDo opening body closing =>
    opening ++ (body.text ++ closing)
| .elseIf opening condition middle body otherwise =>
    opening ++ (condition.text ++ (middle ++ (body.text ++
      otherwise.text)))

def Items.text : Items → List Char
| .nil lead => lead.text
| .cons lead opening patterns body separator rest =>
    lead.text ++ (opening ++ (patterns.text ++ (')' ::
      (body.text ++ (separator ++ rest.text)))))

def Script.text : Script → List Char
| .nil lead => lead.text
| .cons lead command operator rest =>
    lead.text ++ (command.text ++ (operator ++ rest.text))

end

def Program.text (program : Program) : List Char :=
  program.lines.flatMap (fun line =>
    line.1.text ++ line.2.text) ++ program.unread

/- A word of plain characters. -/
def Word.ofText (text : List Char) : Word :=
  text.foldr (fun c rest => .cons (.plain c) rest) .nil

def Word.append : Word → Word → Word
| .nil, word => word
| .cons part rest, word => .cons part (rest.append word)

theorem Word.text_ofText (text : List Char) :
    (ofText text).text = text := by
  induction text with
  | nil => rfl
  | cons c rest ih => exact congrArg (c :: ·) ih

theorem Word.text_append (first second : Word) :
    (first.append second).text = first.text ++ second.text := by
  cases first with
  | nil => rfl
  | cons part rest =>
      rw [append, Word.text, Word.text,
        text_append rest second, List.append_assoc]

------------------------------------------------------------
-- Simple Commands
------------------------------------------------------------

/- The words of a simple command. -/
def Elements.words : Elements → List Word
| .nil _ => []
| .cons _ (.word word) rest => word :: rest.words
| .cons _ _ rest => rest.words

mutual

/- The simple commands inside a part, each by its words. -/
def Part.commands : Part → List (List Word)
| .plain _ => []
| .joined => []
| .escaped _ => []
| .single _ => []
| .double word => word.commands
| .parameter _ => []
| .braced _ word => word.commands
| .arithmetic _ word _ => word.commands
| .substitution _ script => script.commands
| .backquoted _ script => script.commands

def Word.commands : Word → List (List Word)
| .nil => []
| .cons part rest => part.commands ++ rest.commands

/- The delimiter of a here-document is not expanded. -/
def Element.commands : Element → List (List Word)
| .word word => word.commands
| .assignment word => word.commands
| .redirect _ _ _ target => target.commands
| .hereDocument _ _ _ _ => []
| .bar => []

def Elements.commands : Elements → List (List Word)
| .nil _ => []
| .cons _ element rest => element.commands ++ rest.commands

def Linebreak.commands : Linebreak → List (List Word)
| .nil _ => []
| .cons _ bodies rest => bodies.commands ++ rest.commands

def Command.commands : Command → List (List Word)
| .simple elements => elements.words :: elements.commands
| .negated _ _ command => command.commands
| .group _ body _ redirects =>
    body.commands ++ redirects.commands
| .subshell body redirects =>
    body.commands ++ redirects.commands
| .ifThen _ condition _ body otherwise redirects =>
    condition.commands ++ (body.commands ++
      (otherwise.commands ++ redirects.commands))
| .loop _ condition _ body _ redirects =>
    condition.commands ++
      (body.commands ++ redirects.commands)
| .forDo _ _ _ lead _ words _ next _ body _ redirects =>
    lead.commands ++ (words.commands ++ (next.commands ++
      (body.commands ++ redirects.commands)))
| .caseIn _ _ subject lead _ items _ redirects =>
    subject.commands ++ (lead.commands ++
      (items.commands ++ redirects.commands))
| .function _ _ lead body => lead.commands ++ body.commands

def Otherwise.commands : Otherwise → List (List Word)
| .endIf _ => []
| .elseDo _ body _ => body.commands
| .elseIf _ condition _ body otherwise =>
    condition.commands ++
      (body.commands ++ otherwise.commands)

def Items.commands : Items → List (List Word)
| .nil lead => lead.commands
| .cons lead _ patterns body _ rest =>
    lead.commands ++ (patterns.commands ++
      (body.commands ++ rest.commands))

/- The simple commands of a script, nested ones included. -/
def Script.commands : Script → List (List Word)
| .nil lead => lead.commands
| .cons lead command _ rest =>
    lead.commands ++ (command.commands ++ rest.commands)

end

def Program.commands (program : Program) : List (List Word) :=
  program.lines.flatMap fun line =>
    line.1.commands ++ line.2.commands

------------------------------------------------------------
-- Values Of Words
------------------------------------------------------------

mutual

/-
  The characters of a part after the quotes are removed, each
  with whether it was quoted. A part with an expansion has
  none.
-/
def Part.value
    (quoted : Bool) :
    Part → Option (List (Char × Bool))
| .plain c => some [(c, quoted)]
| .joined => some []
| .escaped c => some [(c, true)]
| .single text => some (text.map fun c => (c, true))
| .double word => word.value true
| _ => none

def Word.value
    (quoted : Bool) :
    Word → Option (List (Char × Bool))
| .nil => some []
| .cons part rest => do
    let first ← part.value quoted
    let others ← rest.value quoted
    pure (first ++ others)

end

/- Whether a bracket is closed, within one name of a path. -/
def closesBracket : List (Char × Bool) → Bool
| [] => false
| (c, quoted) :: rest =>
    if c = '/' then false
    else (c = ']' && !quoted) || closesBracket rest

/-
  Whether what follows an opening bracket makes a pattern of
  it. The first character in brackets does not close them.
-/
def bracketed (text : List (Char × Bool)) : Bool :=
  let text :=
    if text.head? = some ('!', false) then text.tail
    else text
  match text with
  | [] => false
  | (c, _) :: rest => c ≠ '/' && closesBracket rest

/- Patterns are expanded to the names of files. -/
def hasPattern : List (Char × Bool) → Bool
| [] => false
| (c, quoted) :: rest =>
    (!quoted && (c = '*' || c = '?' ||
      (c = '[' && bracketed rest))) || hasPattern rest

/- A tilde is expanded at the start of a word. -/
def hasTilde (text : List (Char × Bool)) : Bool :=
  text.head? = some ('~', false) &&
    (text.takeWhile (·.1 ≠ '/')).all (!·.2)

/- The value of a word that has nothing to expand. -/
def Word.literal (word : Word) : Option (List Char) :=
  (word.value false).bind fun text =>
    if hasPattern text || hasTilde text then none
    else some (text.map (·.1))

------------------------------------------------------------
-- Programs
------------------------------------------------------------

/-
  What a word may become. A word without expansions becomes
  one field; what the others become is up to the run.
-/
def Expands
    (expansions : Word → List String → Prop)
    (word : Word)
    (fields : List String) : Prop :=
  match word.literal with
  | some value => fields = [String.ofList value]
  | none => expansions word fields

variable {expansions : Word → List String → Prop}

theorem expands_of_literal
    {word : Word}
    {value : List Char}
    {fields : List String}
    (hLiteral : word.literal = some value) :
    Expands expansions word fields ↔
      fields = [String.ofList value] := by
  unfold Expands
  rw [hLiteral]

theorem expands_of_no_literal
    {word : Word}
    {fields : List String}
    (hLiteral : word.literal = none) :
    Expands expansions word fields ↔
      expansions word fields := by
  unfold Expands
  rw [hLiteral]

theorem exists_expands
    (hTotal : ∀ word, ∃ fields, expansions word fields)
    (words : List Word) :
    ∃ fields,
      List.Forall₂ (Expands expansions) words fields := by
  induction words with
  | nil => exact ⟨[], .nil⟩
  | cons word rest ih =>
      rcases ih with ⟨others, hOthers⟩
      cases hLiteral : word.literal with
      | none =>
          rcases hTotal word with ⟨fields, hFields⟩
          have hFirst :=
            (expands_of_no_literal hLiteral).mpr hFields
          exact ⟨fields :: others, .cons hFirst hOthers⟩
      | some value =>
          have hFirst :
              Expands expansions word
                [String.ofList value] :=
            (expands_of_literal hLiteral).mpr rfl
          exact ⟨_ :: others, .cons hFirst hOthers⟩

/-
  Some simple command of the program starts the file of this
  name. No file has the empty name.
-/
def Starts
    (expansions : Word → List String → Prop)
    (program : Program)
    (name : String) : Prop :=
  name ≠ "" ∧
    ∃ words ∈ program.commands, ∃ fields,
      List.Forall₂ (Expands expansions) words fields ∧
        fields.flatten.head? = some name

end RainEngine.Shell
