import RecordMapper.Derive.Item
import RecordMapper.Derive.Reader
/-!
The phrases that program text is made of, so far as they hold one another. Each is read by a rule
that is given the readers of all of them. A phrase is indexed by what its reader tells: how it may
go on often depends on what it turned out to be.
-/

namespace RecordMapper.Derive.Grammar

/-- What a type turned out to be. -/
inductive TypeForm
  /-- A path. It is `single` if it has one segment and no mark before it. -/
  | path (single : Bool)
  /-- A sole bound that no word stands before, without the parentheses around it. -/
  | sole (bound : List Token)
  | other

/-- What a bound turned out to be. -/
inductive BoundForm
  | lifetime
  | capture
  /-- A path, without the parentheses around it. -/
  | plain (bound : List Token)
  /-- A constant one, which is written as it was taken. -/
  | constant

/-- How an expression may go on. -/
inductive ExpressionKind
  | range
  | comparison
  /-- A block, with or without words before it. It may end a statement or an arm. -/
  | block
  /-- A name called with braces. It may end a statement. -/
  | invocation
  | other
  deriving DecidableEq

/-- What an expression turned out to be. -/
structure ExpressionForm where
  kind : ExpressionKind
  /-- Its leftmost operand is written as it was taken. No attributes are written before it. -/
  raw : Bool

namespace ExpressionForm

def range : ExpressionForm := ⟨.range, false⟩
def block : ExpressionForm := ⟨.block, false⟩
def invocation : ExpressionForm := ⟨.invocation, false⟩
def other : ExpressionForm := ⟨.other, false⟩
def unread : ExpressionForm := ⟨.other, true⟩

end ExpressionForm

/-- How strongly an operator holds its operands together, the weakest first. -/
inductive Precedence
  | weakest
  | assignment
  | range
  | disjunction
  | conjunction
  | comparison
  | bitOr
  | bitXor
  | bitAnd
  | shift
  | sum
  | product
  | cast
  deriving DecidableEq

def Precedence.rank : Precedence → Nat
  | weakest => 0
  | assignment => 1
  | range => 2
  | disjunction => 3
  | conjunction => 4
  | comparison => 5
  | bitOr => 6
  | bitXor => 7
  | bitAnd => 8
  | shift => 9
  | sum => 10
  | product => 11
  | cast => 12

/-- What a pattern turned out to be. -/
inductive PatternForm
  /-- Two dots, which stand for all that is left. -/
  | rest
  /-- A range without a start or without an end. -/
  | openRange
  /-- One that is written as it was taken. No attributes are written before it. -/
  | raw
  | other
  deriving DecidableEq

/-- Phrases that can hold themselves, by way of others. -/
inductive Phrase : Type → Type
  /-- A type. Where `plus` is set, bounds may be added to it. -/
  | type (plus : Bool) : Phrase TypeForm
  /-- A bound. Captured parameters and constant bounds have to be allowed. -/
  | bound (capture constant : Bool) : Phrase BoundForm
  /-- Arguments in angles. Tells whether there is any. -/
  | arguments : Phrase Bool
  /-- A parameter after its attributes. Tells whether it is a lifetime. -/
  | parameter : Phrase Bool
  /-- An expression. Where `braces` is not set, a path before a brace ends it. -/
  | expression (braces : Bool) : Phrase ExpressionForm
  /-- An expression without operators between operands. -/
  | operand (braces : Bool) : Phrase ExpressionForm
  /-- The operators after an expression that was read before, as weak as `base`, and what follows
  them. -/
  | operations (braces : Bool) (base : Precedence) (left : ExpressionForm) : Phrase ExpressionForm
  /-- An expression that begins a statement or makes an arm. A block ends it, unless it goes on with
  a member or a question mark. -/
  | leading : Phrase ExpressionForm
  /-- A pattern that is not several ones. -/
  | pattern : Phrase PatternForm
  /-- Statements, to the end of a block. -/
  | statements : Phrase Unit
  /-- The fields of a struct, to the end of its braces. -/
  | fields : Phrase (List ItemField)
  /-- What a use declaration names. Where `rooted` is set, it may begin with a mark. Tells whether
  some part of it does. -/
  | useTree (rooted : Bool) : Phrase Bool
  /-- An item, its attributes included. -/
  | item : Phrase Unit

/-- The readers of all phrases. -/
structure Rules where
  read {α : Type} (phrase : Phrase α) : Reader α

end RecordMapper.Derive.Grammar
