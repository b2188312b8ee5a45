import RecordMapper.Derive.Token
/-!
What stands at the front of a list of tokens.
-/

namespace RecordMapper.Derive

/-- Words that name nothing unless they are raw. -/
def keywords : List String :=
  ["_", "abstract", "as", "async", "await", "become", "box", "break", "const", "continue", "crate",
    "do", "dyn", "else", "enum", "extern", "false", "final", "fn", "for", "if", "impl", "in", "let",
    "loop", "macro", "match", "mod", "move", "mut", "override", "priv", "pub", "ref", "return",
    "Self", "self", "static", "struct", "super", "trait", "true", "try", "type", "typeof", "unsafe",
    "unsized", "use", "virtual", "where", "while", "yield"]

def atWord (text : String) : List Token → Bool
  | .word found :: _ => found == text
  | _ => false

def atOneOf (texts : List String) : List Token → Bool
  | .word found :: _ => texts.contains found
  | _ => false

def atAnyWord : List Token → Bool
  | .word _ :: _ => true
  | _ => false

/-- A word that is no keyword. -/
def atName : List Token → Bool
  | .word found :: _ => !keywords.contains found
  | _ => false

/-- Marks that are joined one to the next. The last of them may be joined to more. -/
def atMarks : List Char → List Token → Bool
  | [], _ => true
  | [c], .mark found _ :: _ => c == found
  | c :: cs, .mark found true :: rest => c == found && atMarks cs rest
  | _, _ => false

def atMark (text : String) (tokens : List Token) : Bool := atMarks text.toList tokens

/-- An apostrophe and the name after it. -/
def atLifetime : List Token → Bool
  | .mark '\'' true :: .word _ :: _ => true
  | _ => false

/-- A literal, a truth value, or a number with a minus sign. -/
def atLiteral : List Token → Bool
  | .literal _ :: _ => true
  | .word text :: _ => text == "true" || text == "false"
  | .mark '-' _ :: .literal (.integer _) :: _ => true
  | .mark '-' _ :: .literal (.real _) :: _ => true
  | _ => false

def atText : List Token → Bool
  | .literal (.text _) :: _ => true
  | _ => false

def atGroup (delimiter : Delimiter) : List Token → Bool
  | .group found _ :: _ => found == delimiter
  | _ => false

/-- The tokens after the first one. A lifetime counts as one. -/
def skip : List Token → List Token
  | .mark '\'' true :: .word _ :: rest => rest
  | _ :: rest => rest
  | [] => []

/-- The tokens after two. -/
def skipTwo (tokens : List Token) : List Token := skip (skip tokens)

/-- A dot that begins no range. -/
def atDot (tokens : List Token) : Bool := atMark "." tokens && !atMark ".." tokens

/-- A colon that is not doubled. -/
def atColon (tokens : List Token) : Bool := atMark ":" tokens && !atMark "::" tokens

/-- A constant argument that needs no type read first: a literal or a block. -/
def atConstant (tokens : List Token) : Bool := atLiteral tokens || atGroup .brace tokens

/-- A name, or a keyword that stands for a place, where no mark has been before it. -/
def atPlace (tokens : List Token) : Bool :=
  atName tokens || atOneOf ["self", "super", "crate"] tokens

end RecordMapper.Derive
