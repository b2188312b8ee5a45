import RecordMapper.Json.Members
import RecordMapper.Json.Printer
import RecordMapper.Json.Reader
import RecordMapper.Pipeline.Argument
import RecordMapper.Pipeline.Tagged
import RecordMapper.Statement.Basic
/-!
Pipeline requests: statements with their arguments, and closing the stream.
-/

namespace RecordMapper

namespace Argument

/-- Reads an argument from its object. -/
def ofJson? (place : Tagged.Place) (v : Json) : Option Argument := do
  match ← Tagged.read? place ["null", "integer", "float", "text", "blob"] v with
  | (0, _) => some null
  | (1, members) => return integer (← (← Json.requiredMember? members "value").asString?)
  | (2, members) => return float (← (← Json.requiredMember? members "value").asFloat?)
  | (3, members) => return text (← (← Json.requiredMember? members "value").asString?)
  | (_, members) => return blob (← (← Json.requiredMember? members "base64").asString?)

/-- Reads an argument from JSON text. -/
def parse? (text : String) : Option Argument := do ofJson? .outer (← Json.parse? text)

end Argument

inductive StreamRequest
  | execute (sql : String) (args : List Argument)
  | close
  deriving DecidableEq, Repr

structure PipelineRequest where
  /-- The handle of the stream that an earlier response gave. -/
  baton : Option String := none
  requests : List StreamRequest := []
  deriving DecidableEq, Repr

namespace StreamRequest

def toJson : StreamRequest → Json
  | execute sql args =>
    .object [("type", .string "execute"),
      ("stmt", .object [("sql", .string sql), ("args", .array (args.map Argument.toJson))])]
  | close => .object [("type", .string "close")]

def ofJson? (v : Json) : Option StreamRequest := do
  match ← Tagged.read? .outer ["execute", "close"] v with
  | (0, members) => do
    let stmt ← (← Json.requiredMember? members "stmt").asObject?
    let sql ← (← Json.requiredMember? stmt "sql").asString?
    let args ← (← Json.requiredMember? stmt "args").asArray?
    return execute sql (← args.mapM (Argument.ofJson? .inner))
  | _ => some close

end StreamRequest

namespace PipelineRequest

/-- The request with one more statement. -/
def execute (r : PipelineRequest) (sql : String) (params : List Value) :
    Except ArgumentFault PipelineRequest := do
  let args ← params.mapM Argument.ofValue
  return { r with requests := r.requests ++ [.execute sql args] }

def close (r : PipelineRequest) : PipelineRequest := { r with requests := r.requests ++ [.close] }

/-- One more statement, serialized first. -/
def executeStatement (catalog : Catalog) (capability : Capability) (r : PipelineRequest)
    (s : Statement) : Except Error PipelineRequest := do
  let serialized ← s.serialize catalog capability
  (r.execute serialized.text serialized.params).mapError ArgumentFault.toError

/-- All statements, with the stream closed after the last one. -/
def ofStatements (catalog : Catalog) (capability : Capability) (statements : List Statement) :
    Except Error PipelineRequest := do
  return (← statements.foldlM (executeStatement catalog capability) {}).close

def toJson (r : PipelineRequest) : Json :=
  let requests := ("requests", Json.array (r.requests.map StreamRequest.toJson))
  .object (match r.baton with
    | some baton => [("baton", .string baton), requests]
    | none => [requests])

def text (r : PipelineRequest) : String := r.toJson.print

def ofMembers? (members : Json.Members) : Option PipelineRequest := do
  let baton ← Json.optionalString? members "baton"
  let requests ← (← Json.requiredMember? members "requests").asArray?
  return ⟨baton, ← requests.mapM StreamRequest.ofJson?⟩

/-- Reads a request. Members that it does not know are passed over. -/
def parse? (text : String) : Option PipelineRequest := do
  ofMembers? (← Json.wanted? ["baton", "requests"] text)

end PipelineRequest

end RecordMapper
