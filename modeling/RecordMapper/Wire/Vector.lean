import RecordMapper.Number.Binary
/-!
Vectors as blobs: four bytes for each float, the lowest first, and nothing else.
-/

namespace RecordMapper

namespace Binary32

def toBytes (x : Binary32) : List UInt8 :=
  [x.word.toUInt8, (x.word >>> 8).toUInt8, (x.word >>> 16).toUInt8, (x.word >>> 24).toUInt8]

def ofBytes (a b c d : UInt8) : Binary32 :=
  ⟨a.toUInt32 ||| b.toUInt32 <<< 8 ||| c.toUInt32 <<< 16 ||| d.toUInt32 <<< 24⟩

end Binary32

namespace FloatVector

def toBytes (items : List Binary32) : List UInt8 := items.flatMap Binary32.toBytes

/-- Fails when bytes are left over. -/
def ofBytes? : List UInt8 → Option (List Binary32)
  | [] => some []
  | a :: b :: c :: d :: rest => (ofBytes? rest).map (.ofBytes a b c d :: ·)
  | _ => none

end FloatVector

end RecordMapper
