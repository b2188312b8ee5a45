import RecordMapper.Migration.Live
import RecordMapper.Schema.Mapping
import RecordMapper.Text.Blank
import RecordMapper.Text.CaseFold
/-!
Whether a live table enforces uniqueness on a column. A unique index says so by its defining text.
The engine's own indexes carry no text, so they are counted against the columns that need one.
-/

namespace RecordMapper

/-- Partial matches: what remains of a text after a pattern, once for every way to match. -/
abbrev Remainders := List (List Char)

namespace Remainders

/-- After any number of blanks. -/
def afterBlanks : List Char → Remainders
  | [] => [[]]
  | c :: rest => (c :: rest) :: if Text.isBlank c then afterBlanks rest else []

/-- The quoting mark of names, a grave accent. -/
def mark : Char := Char.ofNat 96

/-- After an optional quoting mark. -/
def afterMark : List Char → Remainders
  | [] => [[]]
  | c :: rest => if c = mark then [c :: rest, rest] else [c :: rest]

/-- After a name, letter by letter without regard to case. -/
def afterName : List Char → List Char → Remainders
  | [], text => [text]
  | _ :: _, [] => []
  | a :: name, c :: text => if Text.sameFold a c then afterName name text else []

end Remainders

open Remainders in
/-- The text goes on, after an opening parenthesis, with the name and a closing parenthesis. The
name may stand in quoting marks and blanks. -/
def closesAround (name text : List Char) : Bool :=
  ((((afterBlanks text).flatMap afterMark).flatMap (afterName name)).flatMap afterMark).flatMap
    afterBlanks |>.any fun rest => rest.head? == some ')'

/-- Some pair of parentheses in the text holds the name and nothing else. -/
def namesAlone (name : List Char) : List Char → Bool
  | [] => false
  | c :: rest => (c == '(' && closesAround name rest) || namesAlone name rest

namespace LiveTable

/-- A unique index of the table is defined over one of the names alone. -/
def hasUniqueIndex (live : LiveTable) (table : String) (names : List String) : Bool :=
  names.any fun name =>
    live.indexes.any fun index =>
      index.belongsTo table && index.isUnique &&
        match index.sql with
        | some sql => namesAlone name.toList sql.toList
        | none => false

/-- The engine's indexes owed to the key. A single integer key needs none. -/
def keyIndexCount (live : LiveTable) : Nat :=
  match live.columns.filter LiveColumn.isKey with
  | [] => 0
  | [key] => if Text.sameName (Text.trim key.declaredType) "INTEGER" then 0 else 1
  | _ => 1

def engineIndexCount (live : LiveTable) (table : String) : Nat :=
  live.indexes.countP fun index => index.belongsTo table && index.isEngineMade

/-- The declared unique columns that only an engine's index can serve. -/
def unservedCount (live : LiveTable) (m : Mapping) : Nat :=
  m.columns.countP fun c =>
    c.unique && !c.primaryKey && !live.hasUniqueIndex m.table [c.name, c.field]

/-- Whether the table enforces uniqueness on a column, which it may know by a previous name. -/
def isUnique (live : LiveTable) (m : Mapping) (c : Column) (previous : Option String) : Bool :=
  let explicit := live.hasUniqueIndex m.table (c.name :: previous.toList)
  if explicit || !c.unique then explicit
  else live.unservedCount m + live.keyIndexCount ≤ live.engineIndexCount m.table

end LiveTable

end RecordMapper
