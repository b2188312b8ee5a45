import RecordMapper.Derive.Literal
import RecordMapper.Text.Blank
import RecordMapper.Text.Printable
/-!
Program text as lexemes: single tokens and delimiters, without blanks and comments. Comments nest. A
documentation comment stands for the attribute that holds its text.
-/

namespace RecordMapper.Derive

inductive Lexeme
  | opening (delimiter : Delimiter)
  | closing (delimiter : Delimiter)
  | leaf (token : Token)
  deriving Repr

namespace Lexeme

/-- Splits at the end of the line, before its line feed. -/
def line : List Char → List Char × List Char
  | [] => ([], [])
  | '\n' :: rest => ([], '\n' :: rest)
  | '\r' :: '\n' :: rest => ([], '\n' :: rest)
  | c :: rest => (c :: (line rest).1, (line rest).2)

/-- What a comment holds, with `depth` comments open inside it, and what comes after it. -/
def comment? : Nat → List Char → Option (List Char × List Char)
  | _, [] => none
  | 0, '*' :: '/' :: rest => some ([], rest)
  | depth + 1, '*' :: '/' :: rest =>
    (comment? depth rest).map fun (body, rest) => ('*' :: '/' :: body, rest)
  | depth, '/' :: '*' :: rest =>
    (comment? (depth + 1) rest).map fun (body, rest) => ('/' :: '*' :: body, rest)
  | depth, c :: rest => (comment? depth rest).map fun (body, rest) => (c :: body, rest)

/-- A carriage return stands before something other than a line feed. -/
def hasStrayReturn : List Char → Bool
  | [] => false
  | '\r' :: '\n' :: rest => hasStrayReturn rest
  | c :: rest => c == '\r' || hasStrayReturn rest

/-- The attribute for a documentation comment, on the item after it or on the one around it. -/
def documentation? (inner : Bool) (body : List Char) : Option (List Lexeme) :=
  let text := String.ofList body
  if hasStrayReturn body then none
  else
    some <|
      leaf (.mark '#' false) :: (if inner then [leaf (.mark '!' false)] else []) ++
        [opening .bracket, leaf (.word "doc"), leaf (.mark '=' false),
          leaf (.literal (.text ⟨Text.quote text⟩)), closing .bracket]

def markChars : List Char := "~!@#$%^&*-=+|;:,<.>/?'".toList

/-- A mark stands at the front, and not a comment. -/
def startsMark : List Char → Bool
  | '/' :: '/' :: _ | '/' :: '*' :: _ => false
  | c :: _ => markChars.contains c
  | [] => false

/-- Words that a raw identifier cannot be. -/
def neverRaw : List String := ["_", "super", "self", "Self", "crate"]

/-- Splits off a word: an identifier, or a raw one, which says that it is no keyword. -/
def word? (text : List Char) : Option (String × List Char) :=
  match text with
  | 'r' :: '#' :: rest => do
    let (name, rest) ← Text.identifier? rest
    let name := String.ofList name
    if name ∈ neverRaw then none else some ("r#" ++ name, rest)
  | _ => (Text.identifier? text).map fun (name, rest) => (String.ofList name, rest)

/-- Beginnings of literals, at which no word is read. -/
def literalStarts : List String :=
  ["r\"", "r#\"", "r##", "b\"", "b'", "br\"", "br#", "c\"", "cr\"", "cr#"]

/-- An apostrophe begins the name of a lifetime; it is no character without its closing one. -/
def lifetimeFollows (rest : List Char) : Bool :=
  match word? rest with
  | none => false
  | some (_, after) =>
    after.head? != some '\'' &&
      (after.head? != some '#' || rest.take 2 == ['r', '#'])

def mark? : List Char → Option (Token × List Char)
  | [] => none
  | c :: rest =>
    if !startsMark (c :: rest) then none
    else if c = '\'' then
      if lifetimeFollows rest then some (.mark c true, rest) else none
    else some (.mark c (startsMark rest), rest)

def name? (text : List Char) : Option (Token × List Char) :=
  if literalStarts.any fun start => start.toList.isPrefixOf text then none
  else (word? text).map fun (name, rest) => (.word name, rest)

/-- What stands for a literal that there is none for. It is one token, parentheses and all. -/
def noLiteral : String := "(/*ERROR*/)"

/-- Splits off the token at the front, a literal before all else. -/
def token? (text : List Char) : Option (Token × List Char) :=
  ((Literal.ofFront? text).map fun (literal, rest) => (.literal literal, rest)) <|>
    mark? text <|> name? text

def isSpace (c : Char) : Bool := Text.isBlank c || c == '\u200e' || c == '\u200f'

/-- What a blank, a comment, a delimiter or a token at the front stands for, and the rest. -/
def step? (text : List Char) : Option (List Lexeme × List Char) :=
  match text with
  | [] => none
  | '/' :: '/' :: '/' :: '/' :: rest => some ([], (line rest).2)
  | '/' :: '/' :: '/' :: rest =>
    (documentation? false (line rest).1).map fun d => (d, (line rest).2)
  | '/' :: '/' :: '!' :: rest => (documentation? true (line rest).1).map fun d => (d, (line rest).2)
  | '/' :: '/' :: rest => some ([], (line rest).2)
  | '/' :: '*' :: '*' :: '/' :: rest => some ([], rest)
  | '/' :: '*' :: '*' :: '*' :: rest =>
    (comment? 0 ('*' :: '*' :: rest)).map fun (_, rest) => ([], rest)
  | '/' :: '*' :: '*' :: rest => do
    let (body, rest) ← comment? 0 rest
    return (← documentation? false body, rest)
  | '/' :: '*' :: '!' :: rest => do
    let (body, rest) ← comment? 0 rest
    return (← documentation? true body, rest)
  | '/' :: '*' :: rest => (comment? 0 rest).map fun (_, rest) => ([], rest)
  | '(' :: rest =>
    if noLiteral.toList.isPrefixOf text then
      some ([leaf (.literal (.other noLiteral))], text.drop noLiteral.length)
    else some ([opening .parenthesis], rest)
  | ')' :: rest => some ([closing .parenthesis], rest)
  | '[' :: rest => some ([opening .bracket], rest)
  | ']' :: rest => some ([closing .bracket], rest)
  | '\x7b' :: rest => some ([opening .brace], rest)
  | '\x7d' :: rest => some ([closing .brace], rest)
  | c :: rest =>
    if isSpace c then some ([], rest)
    else (token? (c :: rest)).map fun (token, rest) => ([leaf token], rest)

/-- The lexemes of a text, where every part of it is one. -/
def ofText? (text : List Char) : Option (List Lexeme) :=
  if text = [] then some []
  else
    match step? text with
    | none => none
    | some (found, rest) =>
      if rest.length < text.length then (ofText? rest).map (found ++ ·) else none
termination_by text.length

end Lexeme

/-- The tokens of lexemes whose delimiters match. `opened` holds the groups not yet closed, the
innermost first, each with the tokens before it; `done` holds the tokens so far, the last one
first. -/
def nest? (opened : List (Delimiter × List Token)) (done : List Token) :
    List Lexeme → Option (List Token)
  | [] => if opened.isEmpty then some done.reverse else none
  | .leaf token :: rest => nest? opened (token :: done) rest
  | .opening delimiter :: rest => nest? ((delimiter, done) :: opened) [] rest
  | .closing delimiter :: rest =>
    match opened with
    | [] => none
    | (expected, before) :: opened =>
      if delimiter = expected then nest? opened (.group delimiter done.reverse :: before) rest
      else none

/-- Reads program text. A byte order mark at its front is no part of it. -/
def tokens? (text : String) : Option (List Token) := do
  let chars := text.toList
  let chars := if chars.head? = some '\ufeff' then chars.tail else chars
  nest? [] [] (← Lexeme.ofText? chars)

end RecordMapper.Derive
