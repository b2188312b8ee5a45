import RecordMapper.Pipeline.Request
import RecordMapper.Wire.Row
/-!
Pipeline responses: one result for each request, in order.
-/

namespace RecordMapper

structure ResultColumn where
  name : Option String
  declaredType : Option String
  deriving DecidableEq, Repr

/-- The outcome of one statement. -/
structure StatementResult where
  columns : List ResultColumn
  rows : List (List Argument)
  affected : IntOf .u64
  /-- The decimal row id of the last insert. -/
  lastInsertRowId : Option String
  deriving DecidableEq, Repr

inductive StreamResult
  | executed (result : StatementResult)
  | closed
  | failed (message : String) (code : Option String)
  deriving DecidableEq, Repr

structure PipelineResponse where
  baton : Option String
  results : List StreamResult
  deriving DecidableEq, Repr

/-- Why a response has no results to read. -/
inductive ResponseFault
  | malformed
  | requestFailed (index : Nat) (message : String)
  | rowIdText (text : String)
  deriving DecidableEq, Repr

def ResponseFault.toError : ResponseFault → Error
  | malformed => .of .invalidResponse "malformed pipeline envelope"
  | requestFailed index message =>
    .of .invalidResponse ("request " ++ Numeral.ofNat index ++ " failed: " ++ message)
  | rowIdText text =>
    .of .invalidResponse ("last_insert_rowid `" ++ text ++ "` is not an integer")

namespace Json

def ofOptional : Option String → Json
  | some s => string s
  | none => null

def asWord? : Json → Option (IntOf .u64)
  | integer i => IntOf.ofInt? .u64 i
  | _ => none

end Json

namespace ResultColumn

def toJson (c : ResultColumn) : Json :=
  .object [("name", .ofOptional c.name), ("decltype", .ofOptional c.declaredType)]

def ofJson? (v : Json) : Option ResultColumn := do
  let members ← v.asObject?
  return ⟨← Json.optionalString? members "name", ← Json.optionalString? members "decltype"⟩

end ResultColumn

namespace StatementResult

def toJson (r : StatementResult) : Json :=
  .object [("cols", .array (r.columns.map ResultColumn.toJson)),
    ("rows", .array (r.rows.map fun row => .array (row.map Argument.toJson))),
    ("affected_row_count", .integer r.affected.val),
    ("last_insert_rowid", .ofOptional r.lastInsertRowId)]

def ofJson? (v : Json) : Option StatementResult := do
  let members ← v.asObject?
  let columns ← (← (← Json.requiredMember? members "cols").asArray?).mapM ResultColumn.ofJson?
  let rows ← (← (← Json.requiredMember? members "rows").asArray?).mapM fun row => do
    (← row.asArray?).mapM (Argument.ofJson? .inner)
  let affected ← (← Json.requiredMember? members "affected_row_count").asWord?
  return ⟨columns, rows, affected, ← Json.optionalString? members "last_insert_rowid"⟩

/-- The column names in order. A column without a name has an empty one. -/
def columnNames (r : StatementResult) : List String := r.columns.map fun c => c.name.getD ""

def wireRows (r : StatementResult) : List (List WireValue) :=
  r.rows.map fun row => row.map Argument.toWire

def rowId (r : StatementResult) : Except ResponseFault (Option (IntOf .i64)) :=
  match r.lastInsertRowId with
  | none => .ok none
  | some text =>
    match (Numeral.integer? text.toList).bind (IntOf.ofInt? .i64) with
    | some n => .ok (some n)
    | none => .error (.rowIdText text)

end StatementResult

namespace StreamResult

def toJson : StreamResult → Json
  | executed result =>
    .object [("type", .string "ok"),
      ("response", .object [("type", .string "execute"), ("result", result.toJson)])]
  | closed =>
    .object [("type", .string "ok"), ("response", .object [("type", .string "close")])]
  | failed message code =>
    .object [("type", .string "error"),
      ("error", .object [("message", .string message), ("code", .ofOptional code)])]

/-- Reads what a request that went well answers. -/
def ofResponse? (v : Json) : Option StreamResult := do
  match ← Tagged.read? .inner ["execute", "close"] v with
  | (0, members) =>
    return executed (← StatementResult.ofJson? (← Json.requiredMember? members "result"))
  | _ => some closed

def ofError? (v : Json) : Option StreamResult := do
  let members ← v.asObject?
  let message ← (← Json.requiredMember? members "message").asString?
  return failed message (← Json.optionalString? members "code")

def ofJson? (v : Json) : Option StreamResult := do
  match ← Tagged.read? .outer ["ok", "error"] v with
  | (0, members) => ofResponse? (← Json.requiredMember? members "response")
  | (_, members) => ofError? (← Json.requiredMember? members "error")

end StreamResult

namespace PipelineResponse

def toJson (r : PipelineResponse) : Json :=
  .object [("baton", .ofOptional r.baton),
    ("results", .array (r.results.map StreamResult.toJson))]

def text (r : PipelineResponse) : String := r.toJson.print

def ofMembers? (members : Json.Members) : Option PipelineResponse := do
  let baton ← Json.optionalString? members "baton"
  let results ← (← Json.requiredMember? members "results").asArray?
  return ⟨baton, ← results.mapM StreamResult.ofJson?⟩

/-- Reads a response. Members that it does not know are passed over. -/
def parse (text : String) : Except ResponseFault PipelineResponse :=
  match (Json.wanted? ["baton", "results"] text).bind ofMembers? with
  | some r => .ok r
  | none => .error .malformed

/-- The results of statements from the request `index` on. A failed request fails them all. -/
def executedFrom (index : Nat) : List StreamResult → Except ResponseFault (List StatementResult)
  | [] => .ok []
  | .executed result :: rest => return result :: (← executedFrom (index + 1) rest)
  | .closed :: rest => executedFrom (index + 1) rest
  | .failed message _ :: _ => .error (.requestFailed index message)

def executed (r : PipelineResponse) : Except ResponseFault (List StatementResult) :=
  executedFrom 0 r.results

end PipelineResponse

end RecordMapper
