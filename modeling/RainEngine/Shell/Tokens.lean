import RainEngine.Shell.Grammar

/-
  This file recognises the tokens of shell scripts. A
  backslash before a newline joins two lines; the pair is kept
  in what is written, and left out of what it means.

  Key definitions include:
    * `lexeme`
    * `gap`
    * `Keyword`
    * `Context.opening`
    * `Mode.ahead`
    * `HereDocument.split`
-/

namespace RainEngine.Shell

------------------------------------------------------------
-- Characters
------------------------------------------------------------

/- The characters that end a word. -/
def isMeta (c : Char) : Bool :=
  c ∈ [' ', '\t', '\n', '|', '&', ';', '<', '>', '(', ')']

def isQuote (c : Char) : Bool :=
  c ∈ ['\\', '\'', '"', '$', '`']

def isNameStart (c : Char) : Bool :=
  c.isAlpha || c = '_'

def isNameCharacter (c : Char) : Bool :=
  c.isAlphanum || c = '_'

/- The characters from the front that a test allows. -/
def run (allowed : Char → Bool) : List Char → List Char
| '\\' :: '\n' :: rest => '\\' :: '\n' :: run allowed rest
| c :: rest => if allowed c then c :: run allowed rest else []
| [] => []

/- What is written, with its lines joined. -/
def unjoin : List Char → List Char
| '\\' :: '\n' :: rest => unjoin rest
| c :: rest => c :: unjoin rest
| [] => []

/- The front of a text, if it is the name joined. -/
def lexeme : List Char → List Char → Option (List Char)
| [], _ => some []
| c :: name, text =>
    let joins := run (fun _ => false) text
    match text.drop joins.length with
    | [] => none
    | d :: rest =>
        if c = d then
          (lexeme name rest).map fun written =>
            joins ++ (d :: written)
        else none

/- The blanks before a token, and the comment after them. -/
def gap : List Char → List Char
| '\\' :: '\n' :: rest => '\\' :: '\n' :: gap rest
| c :: rest =>
    if c = ' ' || c = '\t' then c :: gap rest
    else if c = '#' then
      c :: rest.takeWhile (· ≠ '\n')
    else []
| [] => []

------------------------------------------------------------
-- Reserved Words
------------------------------------------------------------

inductive Keyword where
  | bang
  | openBrace
  | closeBrace
  | caseWord
  | doWord
  | done
  | elifWord
  | elseWord
  | esac
  | fi
  | forWord
  | ifWord
  | inWord
  | thenWord
  | untilWord
  | whileWord
deriving DecidableEq

def Keyword.text : Keyword → List Char
| .bang => ['!']
| .openBrace => ['{']
| .closeBrace => ['}']
| .caseWord => ['c', 'a', 's', 'e']
| .doWord => ['d', 'o']
| .done => ['d', 'o', 'n', 'e']
| .elifWord => ['e', 'l', 'i', 'f']
| .elseWord => ['e', 'l', 's', 'e']
| .esac => ['e', 's', 'a', 'c']
| .fi => ['f', 'i']
| .forWord => ['f', 'o', 'r']
| .ifWord => ['i', 'f']
| .inWord => ['i', 'n']
| .thenWord => ['t', 'h', 'e', 'n']
| .untilWord => ['u', 'n', 't', 'i', 'l']
| .whileWord => ['w', 'h', 'i', 'l', 'e']

def Keyword.all : List Keyword :=
  [.bang, .openBrace, .closeBrace, .caseWord, .doWord, .done,
    .elifWord, .elseWord, .esac, .fi, .forWord, .ifWord,
    .inWord, .thenWord, .untilWord, .whileWord]

/- Whether a command begins with it. -/
def Keyword.opens : Keyword → Bool
| .bang | .openBrace | .caseWord | .forWord | .ifWord
| .untilWord | .whileWord => true
| _ => false

/- The word at the front of a text, if nothing is quoted. -/
def bareWord (text : List Char) : Option (List Char) :=
  let written := run (fun c => !isMeta c && !isQuote c) text
  match text.drop written.length with
  | [] => some written
  | c :: _ => if isMeta c then some written else none

def keyword (text : List Char) :
    Option (Keyword × List Char) :=
  (bareWord text).bind fun written =>
    (Keyword.all.find? (·.text = unjoin written)).map
      fun name => (name, written)

------------------------------------------------------------
-- Operators
------------------------------------------------------------

/- What may stand after a command. -/
inductive Operator where
  | none
  | semicolon
  | background
  | andIf
  | orIf
  | pipe
deriving DecidableEq

def operator (text : List Char) : Operator × List Char :=
  match lexeme ['&', '&'] text with
  | some written => (.andIf, written)
  | none =>
      match lexeme ['|', '|'] text with
      | some written => (.orIf, written)
      | none =>
          match lexeme [';', ';'] text with
          | some _ => (.none, [])
          | none =>
              match text.head? with
              | some ';' => (.semicolon, [';'])
              | some '&' => (.background, ['&'])
              | some '|' => (.pipe, ['|'])
              | _ => (.none, [])

/- The operators of redirects, longer ones before shorter. -/
def redirectOperators : List (List Char) :=
  [['<', '<', '-'], ['<', '<'], ['<', '&'], ['<', '>'],
    ['<'], ['>', '>'], ['>', '&'], ['>', '|'], ['>']]

/- The number, the operator and how the operator is written. -/
def redirect (text : List Char) :
    Option (List Char × List Char × List Char) :=
  let number := run Char.isDigit text
  redirectOperators.findSome? fun name =>
    (lexeme name (text.drop number.length)).map
      fun written => (number, name, written)

------------------------------------------------------------
-- Inside Words
------------------------------------------------------------

/- Where a part of a word stands. -/
inductive Context where
  | bare
  | double
  | braced
  | bracedDouble
  | arithmetic (depth : Nat)
  | document
deriving DecidableEq

namespace Context

/- The context inside of braces. -/
def inner : Context → Context
| .bare | .braced => .braced
| _ => .bracedDouble

/- Where single quotes quote, and a backslash anything. -/
def unquoted : Context → Bool
| .bare | .braced => true
| _ => false

/- Where double quotes quote. -/
def quotes : Context → Bool
| .bare | .braced | .bracedDouble => true
| _ => false

/- Whether a backquoted script is inside double quotes. -/
def inDouble : Context → Bool
| .double | .bracedDouble => true
| _ => false

/- What a backslash quotes. -/
def escapes (c : Char) : Context → Bool
| .bare | .braced => true
| .double | .arithmetic _ => c ∈ ['$', '`', '"', '\\']
| .bracedDouble => c ∈ ['$', '`', '"', '\\', '}']
| .document => c ∈ ['$', '`', '\\']

/- Whether a word ends before a text. -/
def ends (context : Context) (text : List Char) : Bool :=
  match context, text with
  | _, [] => true
  | .bare, c :: _ => isMeta c
  | .double, c :: _ => c = '"'
  | .braced, c :: _ => c = '}'
  | .bracedDouble, c :: _ => c = '}'
  | .arithmetic depth, text =>
      depth = 0 && (lexeme [')', ')'] text).isSome
  | .document, _ => false

/- Parentheses are counted in an arithmetic expression. -/
def after (part : Part) : Context → Context
| .arithmetic depth =>
    match part with
    | .plain '(' => .arithmetic (depth + 1)
    | .plain ')' => .arithmetic (depth - 1)
    | _ => .arithmetic depth
| context => context

end Context

/- How a part of a word begins. -/
inductive Opening where
  | nothing
  | joined
  | escaped (c : Char)
  | single
  | double
  | backquote
  | arithmetic (written : List Char)
  | substitution (written : List Char)
  | braced (written : List Char)
  | parameter (written : List Char)
  | plain (c : Char)

/- A name, a digit or a special character. -/
def parameter (text : List Char) : Option (List Char) :=
  let joins := run (fun _ => false) text
  match text.drop joins.length with
  | [] => none
  | c :: rest =>
      if isNameStart c then
        some (joins ++ (c :: run isNameCharacter rest))
      else if c.isDigit ||
          c ∈ ['@', '*', '#', '?', '-', '$', '!'] then
        some (joins ++ [c])
      else none

/- What a dollar sign begins. -/
def dollar (text : List Char) : Opening :=
  match lexeme ['$', '(', '('] text with
  | some written => .arithmetic written
  | none =>
      match lexeme ['$', '('] text with
      | some written => .substitution written
      | none =>
          match lexeme ['$', '{'] text with
          | some written => .braced written
          | none =>
              match parameter text.tail with
              | some written => .parameter ('$' :: written)
              | none => .plain '$'

def Context.opening (context : Context) :
    List Char → Opening
| [] => .nothing
| '\\' :: '\n' :: _ => .joined
| '\\' :: c :: _ =>
    if context.escapes c then .escaped c else .plain '\\'
| '\'' :: _ =>
    if context.unquoted then .single else .plain '\''
| '"' :: _ => if context.quotes then .double else .plain '"'
| '`' :: _ => .backquote
| '$' :: rest => dollar ('$' :: rest)
| c :: _ => .plain c

/- What is written up to the closing backquote. -/
def backquoted : List Char → List Char
| [] => []
| '`' :: _ => []
| '\\' :: c :: rest => '\\' :: c :: backquoted rest
| c :: rest => c :: backquoted rest

/- The script that is written inside of backquotes. -/
def unescape (inDouble : Bool) : List Char → List Char
| '\\' :: c :: rest =>
    if c ∈ ['$', '`', '\\'] || (inDouble && c = '"') then
      c :: unescape inDouble rest
    else '\\' :: c :: unescape inDouble rest
| c :: rest => c :: unescape inDouble rest
| [] => []

/- The plain characters that a word begins with. -/
def Word.start : Word → List Char
| .cons (.plain c) rest => c :: rest.start
| .cons .joined rest => rest.start
| _ => []

/- Whether a word sets a variable. -/
def Word.assigns (word : Word) : Bool :=
  let name := word.start.takeWhile isNameCharacter
  name.head?.any isNameStart &&
    (word.start.drop name.length).head? = some '='

def Word.isPlain : Word → Bool
| .nil => true
| .cons (.plain _) rest => rest.isPlain
| .cons .joined rest => rest.isPlain
| _ => false

def isName (text : List Char) : Bool :=
  text.head?.any isNameStart && text.all isNameCharacter

------------------------------------------------------------
-- Lists Of Words
------------------------------------------------------------

/-
  What may come next: everything, no assignment, only
  redirects, only words, the next pattern of a `case`, or the
  bar after one.
-/
inductive Mode where
  | start
  | arguments
  | redirects
  | words
  | pattern
  | bar
deriving DecidableEq

inductive Ahead where
  | stop
  | refused
  | bar
  | redirect (number name written : List Char)
  | word

def startsWord (text : List Char) : Bool :=
  text.head?.any fun c => !isMeta c

namespace Mode

def ahead (mode : Mode) (text : List Char) : Ahead :=
  let next : Ahead :=
    if startsWord text then .word else .stop
  match mode with
  | .start | .arguments =>
      match redirect text with
      | some (number, name, written) =>
          .redirect number name written
      | none => next
  | .redirects =>
      match redirect text with
      | some (number, name, written) =>
          .redirect number name written
      | none => .stop
  | .words => next
  | .pattern => if startsWord text then .word else .refused
  | .bar => if text.head? = some '|' then .bar else .stop

/- The mode after a word. -/
def after (mode : Mode) (assigned : Bool) : Mode :=
  match mode with
  | .start => if assigned then .start else .arguments
  | .pattern => .bar
  | _ => mode

end Mode

------------------------------------------------------------
-- Here-Documents
------------------------------------------------------------

/- A here-document whose body is not read yet. -/
structure HereDocument where
  strips : Bool
  quoted : Bool
  delimiter : List Char

namespace HereDocument

mutual

/- Only quotes are removed from a delimiter. -/
def partText : Part → List Char
| .joined => []
| .escaped c => [c]
| .single text => text
| .double word => wordText word
| part => part.text

def wordText : Word → List Char
| .nil => []
| .cons part rest => partText part ++ wordText rest

end

def isQuoted : Word → Bool
| .nil => false
| .cons part rest =>
    match part with
    | .escaped _ | .single _ | .double _ => true
    | _ => isQuoted rest

def of (name : List Char) (word : Word) : HereDocument where
  strips := name = ['<', '<', '-']
  quoted := isQuoted word
  delimiter := wordText word

def isEnd (document : HereDocument) (line : List Char) : Bool :=
  (if document.strips then line.dropWhile (· = '\t')
    else line) = document.delimiter

/-
  The body of a here-document and the line that ends it. If
  no line does, the body ends with the text. Lines are joined
  unless the delimiter is quoted.
-/
def split (document : HereDocument) (line : List Char) :
    List Char → List Char × List Char
| [] =>
    if document.isEnd line then ([], line) else (line, [])
| '\n' :: rest =>
    if document.isEnd line then ([], line ++ ['\n'])
    else
      let others := document.split [] rest
      (line ++ ('\n' :: others.1), others.2)
| '\\' :: c :: rest =>
    if document.quoted then
      document.split (line ++ ['\\']) (c :: rest)
    else document.split (line ++ ['\\', c]) rest
| c :: rest => document.split (line ++ [c]) rest

end HereDocument

end RainEngine.Shell
