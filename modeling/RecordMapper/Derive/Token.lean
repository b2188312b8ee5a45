/-!
Tokens of program text: words, marks of punctuation, literals, and groups of tokens between
delimiters.
-/

namespace RecordMapper.Derive

inductive Delimiter
  | parenthesis
  | bracket
  | brace
  deriving DecidableEq, Repr

namespace Delimiter

def opening : Delimiter → Char
  | parenthesis => '('
  | bracket => '['
  | brace => '\x7b'

def closing : Delimiter → Char
  | parenthesis => ')'
  | bracket => ']'
  | brace => '\x7d'

end Delimiter

/-- A text as it is written, in quotes and with its escapes. -/
structure TextLiteral where
  written : String
  deriving DecidableEq, Repr

/-- An integer as it is written, in its base and with its suffix. -/
structure IntegerLiteral where
  written : String
  deriving DecidableEq, Repr

inductive Literal
  | text (literal : TextLiteral)
  | integer (literal : IntegerLiteral)
  | real (written : String)
  /-- Characters, bytes, and texts other than plain ones. -/
  | other (written : String)
  deriving DecidableEq, Repr

def Literal.written : Literal → String
  | text literal => literal.written
  | integer literal => literal.written
  | real written | other written => written

inductive Token
  | word (text : String)
  /-- A mark is joined when another mark follows it at once: `::` is a joined mark and another. -/
  | mark (char : Char) (joined : Bool)
  | literal (literal : Literal)
  | group (delimiter : Delimiter) (body : List Token)
  deriving Repr

mutual

/-- The token as written, a group as its delimiters and what they hold. -/
def Token.spell : Token → List String
  | .word text => [text]
  | .mark char _ => [char.toString]
  | .literal literal => [literal.written]
  | .group delimiter body =>
    delimiter.opening.toString :: spellAll body ++ [delimiter.closing.toString]

def spellAll : List Token → List String
  | [] => []
  | token :: rest => token.spell ++ spellAll rest

end

mutual

/-- The number of tokens, those in groups included. -/
def Token.count : Token → Nat
  | .group _ body => 1 + countAll body
  | .word _ | .mark _ _ | .literal _ => 1

def countAll : List Token → Nat
  | [] => 0
  | token :: rest => token.count + countAll rest

end

end RecordMapper.Derive
