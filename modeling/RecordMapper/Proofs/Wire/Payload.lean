import RecordMapper.Proofs.Text.Base64
import RecordMapper.Proofs.Text.Trimming
import RecordMapper.Proofs.Wire.Row
/-!
Binary payloads come raw or as text in base64, with any blanks around it. A payload decodes in the
same way in whichever form it comes, and a text that decodes is the one text of its bytes.
-/

namespace RecordMapper

open Text

theorem Base64.trims_encode_iff {s : List Char} {data : List UInt8} :
    Trims s (encode data).toList ↔ Pads s (encode data).toList := by
  have hblank := isBlank_encodeList data
  rw [encode, String.toList_ofList]
  constructor
  · exact Trims.pads
  · intro h
    refine ⟨h, ?_, ?_⟩
    · intro c hc
      exact hblank c (List.mem_of_mem_head? hc)
    · intro c hc
      exact hblank c (List.mem_of_mem_getLast? hc)

namespace WireValue

/-- The bytes of a binary payload, raw or in base64 with any blanks around it. -/
def Carries : WireValue → List UInt8 → Prop
  | bytes raw, data => raw = data
  | text s, data | json (.string s), data => Pads s.toList (Base64.encode data).toList
  | _, _ => False

variable {w : WireValue} {data : List UInt8}

theorem decode?_trim_iff {s : String} :
    Base64.decode? (trim s) = some data ↔ Pads s.toList (Base64.encode data).toList := by
  rw [Base64.decode?_eq_some_iff, eq_comm, trim_eq_iff, Base64.trims_encode_iff]

theorem payload?_eq_some_iff : w.payload? = some data ↔ w.Carries data := by
  cases w with
  | bytes raw => exact Option.some_inj
  | text s => exact decode?_trim_iff
  | json node =>
    cases node with
    | string s => exact decode?_trim_iff
    | _ => exact iff_of_false nofun nofun
  | _ => exact iff_of_false nofun nofun

theorem Carries.isNull (h : w.Carries data) : w.isNull = false := by
  rw [isNull_eq_false_iff]
  constructor
  · rintro rfl
    exact h
  · rintro rfl
    exact h

end WireValue

namespace StorageClass

variable {type : NativeType} {w : WireValue} {data : List UInt8}

theorem decode?_blob (h : w.Carries data) : blob.decode? type w = decodeBlob? data type := by
  rw [decode?, WireValue.payload?_eq_some_iff.2 h, Option.bind_some]

end StorageClass

namespace Field

variable {w : WireValue} {data : List UInt8} {name : String} {readOnly : Bool}

theorem decode_bytes (h : w.Carries data) (slot : Slot (List UInt8)) :
    decode .blob w ⟨name, .bytes, slot, readOnly⟩ =
      (⟨name, .bytes, slot.set data, readOnly⟩, .written) :=
  decode_of_decode? h.isNull (StorageClass.decode?_blob h)

theorem decode_base64 (h : w.Carries data) (slot : Slot String) :
    decode .blob w ⟨name, .string, slot, readOnly⟩ =
      (⟨name, .string, slot.set (Base64.encode data), readOnly⟩, .written) :=
  decode_of_decode? h.isNull (StorageClass.decode?_blob h)

theorem exists_carries {f : Field} (hw : w.isNull = false) (h : (f.decode .blob w).2 = .written) :
    ∃ data, w.Carries data := by
  obtain ⟨x, hx⟩ := (written_iff hw).1 h
  obtain ⟨data, hdata, _⟩ := Option.bind_eq_some_iff.1 hx
  exact ⟨data, WireValue.payload?_eq_some_iff.1 hdata⟩

/-- A payload fills bytes with itself and a text with its base64. A text that is taken as a payload
is the base64 of its bytes, but for blanks around it. -/
theorem decode_blob (name : String) (readOnly : Bool) (bytes : Slot (List UInt8))
    (string : Slot String) :
    (∀ w data, w.Carries data →
      decode .blob w ⟨name, .bytes, bytes, readOnly⟩ =
          (⟨name, .bytes, bytes.set data, readOnly⟩, .written) ∧
        decode .blob w ⟨name, .string, string, readOnly⟩ =
          (⟨name, .string, string.set (Base64.encode data), readOnly⟩, .written)) ∧
    ∀ w t, w = .text t ∨ w = .json (.string t) →
      (∀ g, decode .blob w ⟨name, .string, string, readOnly⟩ = (g, .written) →
        ∃ s : String, Trims t.toList s.toList ∧ g = ⟨name, .string, string.set s, readOnly⟩) ∧
      ∀ g, decode .blob w ⟨name, .bytes, bytes, readOnly⟩ = (g, .written) →
        ∃ data, Trims t.toList (Base64.encode data).toList ∧
          g = ⟨name, .bytes, bytes.set data, readOnly⟩ := by
  constructor
  · intro w data h
    exact ⟨decode_bytes h bytes, decode_base64 h string⟩
  · intro w t ht
    have hw : w.isNull = false := by
      rcases ht with rfl | rfl
      all_goals rfl
    have htrims : ∀ data, w.Carries data → Trims t.toList (Base64.encode data).toList := by
      intro data h
      rw [Base64.trims_encode_iff]
      rcases ht with rfl | rfl
      all_goals exact h
    constructor
    · intro g hg
      obtain ⟨data, h⟩ := exists_carries hw (congrArg Prod.snd hg)
      rw [decode_base64 h, Prod.mk.injEq] at hg
      exact ⟨Base64.encode data, htrims data h, hg.1.symm⟩
    · intro g hg
      obtain ⟨data, h⟩ := exists_carries hw (congrArg Prod.snd hg)
      rw [decode_bytes h, Prod.mk.injEq] at hg
      exact ⟨data, htrims data h, hg.1.symm⟩

end Field

/-- A cover comes as `AAEC` with blanks around it; what is read back is the text without them. -/
theorem decode_blob_cover :
    let text : WireValue := .text "\u3000AAEC\n"
    Field.decode .blob text ⟨"cover", .bytes, .optional none, false⟩ =
        (⟨"cover", .bytes, .optional (some [0, 1, 2]), false⟩, .written) ∧
      Field.decode .blob text ⟨"cover", .string, .required "", false⟩ =
        (⟨"cover", .string, .required "AAEC", false⟩, .written) ∧
      Trims "\u3000AAEC\n".toList "AAEC".toList := by
  intro text
  obtain ⟨hpayload, htext⟩ := Field.decode_blob "cover" false (.optional none) (.required "")
  have hcarries : text.Carries [0, 1, 2] := WireValue.payload?_eq_some_iff.1 (by decide +kernel)
  have hencode : Base64.encode [0, 1, 2] = "AAEC" := by decide +kernel
  obtain ⟨hbytes, hstring⟩ := hpayload text [0, 1, 2] hcarries
  rw [hencode] at hstring
  obtain ⟨s, htrims, hs⟩ := (htext text _ (.inl rfl)).1 _ hstring
  cases hs
  exact ⟨hbytes, hstring, htrims⟩

end RecordMapper
