/-!
Errors as chains: a fault and the faults that led to it, the nearest first. The text of an error
joins the texts of its faults; its kind is that of the outermost one.
-/

namespace RecordMapper

inductive ErrorKind
  | unsupportedExpression
  | invalidArgument
  | schemaResolution
  | invalidSchema
  | invalidResponse
  /-- A free message. -/
  | adhoc
  /-- An error of another library, kept as the source. -/
  | foreign
  deriving DecidableEq, Repr

/-- What stands before the detail in the text of a fault. -/
def ErrorKind.heading : ErrorKind → String
  | unsupportedExpression => "unsupported expression: "
  | invalidArgument => "invalid argument: "
  | schemaResolution => "schema resolution failed: "
  | invalidSchema => "invalid schema: "
  | invalidResponse => "invalid response: "
  | adhoc | foreign => ""

structure Fault where
  kind : ErrorKind
  detail : String
  deriving DecidableEq, Repr

namespace Fault

def message (f : Fault) : String := f.kind.heading ++ f.detail

/-- A fault that is still in use elsewhere enters a chain as its bare text. -/
def detached (f : Fault) : Fault := ⟨.adhoc, f.message⟩

theorem message_detached (f : Fault) : f.detached.message = f.message := by
  simp [detached, message, ErrorKind.heading]

end Fault

structure Error where
  fault : Fault
  causes : List Fault := []
  deriving DecidableEq, Repr

namespace Error

def of (kind : ErrorKind) (detail : String) : Error := ⟨⟨kind, detail⟩, []⟩

def kind (e : Error) : ErrorKind := e.fault.kind

def faults (e : Error) : List Fault := e.fault :: e.causes

def message (e : Error) : String := ": ".intercalate (e.faults.map Fault.message)

/-- The same error with a fault around it. -/
def context (e : Error) (f : Fault) : Error := ⟨f, e.faults⟩

/-- The text of the other library's error at the outermost place. -/
def source? (e : Error) : Option String :=
  if e.kind = .foreign then some e.fault.message else none

end Error

end RecordMapper
