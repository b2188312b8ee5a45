import RecordMapper.Error
import RecordMapper.Schema.Declaration
/-!
The record types that handles can resolve to.
-/

namespace RecordMapper

inductive CatalogEntry
  /-- Validated when it is resolved. -/
  | declared (declaration : Declaration)
  /-- Taken as it stands. -/
  | assembled (mapping : Mapping)
  | unregistered (name : String)
  deriving Repr

namespace CatalogEntry

def name : CatalogEntry → String
  | declared d => d.name
  | assembled m => m.name
  | unregistered name => name

def resolve : CatalogEntry → Except Error Mapping
  | declared d =>
    match d.build with
    | .ok m => .ok m
    | .error fault => .error (.of .invalidSchema fault.detail)
  | assembled m => .ok m
  | unregistered _ => .error (.of .schemaResolution "not registered")

end CatalogEntry

abbrev Catalog := List CatalogEntry

namespace Catalog

def resolve (catalog : Catalog) (ref : RecordRef) : Except Error Mapping :=
  ((catalog[ref.entry]?).getD (.unregistered ref.name)).resolve

end Catalog

end RecordMapper
