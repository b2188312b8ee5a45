import RecordMapper.Pipeline.Response
import RecordMapper.Schema.Catalog
/-!
Loading the rows of a response into records.
-/

namespace RecordMapper

namespace StatementResult

/-- The rows of a result as records. The mapping is needed as soon as there is a row. -/
def load (mapping : Except Error Mapping) (blank : Record) (r : StatementResult)
    (notes : RowNotes) : RowNotes × Except (Stop Error) (List Record) :=
  match r.wireRows, mapping with
  | [], _ => (notes, .ok [])
  | _ :: _, .error e => (notes, .error (.fault e))
  | rows, .ok m =>
    let (notes, loaded) := m.loadRows blank r.columnNames rows notes
    (notes, loaded.mapError (Stop.map RecordFault.toError))

end StatementResult

/-- The rows of all results, a list of records for each, up to the first stop. -/
def loadResults (mapping : Except Error Mapping) (blank : Record) :
    List StatementResult → RowNotes → RowNotes × Except (Stop Error) (List (List Record))
  | [], notes => (notes, .ok [])
  | r :: rest, notes =>
    match r.load mapping blank notes with
    | (notes, .error stop) => (notes, .error stop)
    | (notes, .ok records) =>
      match loadResults mapping blank rest notes with
      | (notes, .ok more) => (notes, .ok (records :: more))
      | (notes, .error stop) => (notes, .error stop)

/-- Reads a response and loads its rows. -/
def loadResponse (mapping : Except Error Mapping) (blank : Record) (text : String) :
    RowNotes × Except (Stop Error) (List (List Record)) :=
  match (PipelineResponse.parse text).bind PipelineResponse.executed with
  | .ok results => loadResults mapping blank results {}
  | .error fault => ({}, .error (.fault fault.toError))

end RecordMapper
