import RecordMapper.Derive.Grammar.Statement
/-!
The grammar of items. The rule of every phrase is given the readers of all phrases, and those are
bounded by a number that each use of a rule lowers. A few times the count of the tokens is enough:
no rule uses more than a few others before a token is taken or a group is gone into.
-/

namespace RecordMapper.Derive

namespace Grammar

/-- The rule of a phrase. -/
def rule (c : Rules) {α : Type} : Phrase α → Reader α
  | .type plus => type c plus
  | .bound captures constant => bound c captures constant
  | .arguments => arguments c
  | .parameter => parameter c
  | .expression braces => expression c braces
  | .operand braces => operand c braces
  | .operations braces base left => operations c braces base left
  | .leading => leading c
  | .pattern => pattern c
  | .statements => statements c
  | .fields => fields c
  | .useTree rooted => useTree c rooted
  | .item => item c

/-- The readers of all phrases, with at most `depth` rules in use at a time. -/
def rules : Nat → Rules
  | 0 => ⟨fun _ => Reader.fail⟩
  | depth + 1 => ⟨fun phrase => rule (rules depth) phrase⟩

/-- Enough for every phrase of these tokens. -/
def enough (tokens : List Token) : Nat := 16 * (countAll tokens + 1)

/-- Reads by a rule, with readers that are enough for the tokens. -/
def reading {α : Type} (rule : Rules → Reader α) : Reader α := fun tokens =>
  rule (rules (enough tokens)) tokens

end Grammar

/-- A path in a type, with its arguments. -/
def typePath : Reader Unit := Grammar.reading fun c => do
  let _ ← Grammar.path c false

/-- Reads one struct item. -/
def Item.ofTokens? (tokens : List Token) : Option Item :=
  match Grammar.reading (fun c => do Grammar.structItem c (← Grammar.attributes c)) tokens with
  | some ⟨item, _, []⟩ => some item
  | _ => none

end RecordMapper.Derive
