import RecordMapper.Pipeline.Request
import RecordMapper.Proofs.Json.Text
import RecordMapper.Proofs.Traversal
/-!
A request comes back from its text when its floats do. Nothing else in it can be lost: the strings
hold any characters, the baton may be absent, and the objects say what they are.
-/

namespace RecordMapper

/-- The number is what the reader makes of the shortest digits that tell it apart. The reader rounds
at each step, so not every finite number is; of the others there are no digits to read. -/
def Binary64.ReadsBack (x : Binary64) : Prop :=
  ∃ v, Json.number? x.jsonText.toList = some (v, []) ∧ v.asFloat? = some x

theorem Binary64.ReadsBack.isFinite {x : Binary64} (h : x.ReadsBack) : x.datum.isFinite = true := by
  obtain ⟨v, hv, _⟩ := h
  by_contra hx
  have hnull : Json.number? "null".toList = none := rfl
  rw [Json.jsonText_of_not_finite (Bool.eq_false_iff.2 hx), hnull] at hv
  cases hv

theorem Binary64.readsBack_iff {x : Binary64} :
    x.ReadsBack ↔ (Json.float x).reread.bind Json.asFloat? = some x := by
  rw [Json.reread]
  cases hx : x.datum.isFinite with
  | false =>
    exact iff_of_false (fun h => by rw [h.isFinite] at hx; cases hx) (by simp [Json.asFloat?])
  | true =>
    have hnumber := Json.number?_append (Json.isNumber_jsonText hx) Json.boundary_nil
    rw [List.append_nil] at hnumber
    rw [if_pos rfl, ReadsBack]
    cases hn : Json.number? x.jsonText.toList with
    | none => simp
    | some found =>
      obtain ⟨v, rest⟩ := found
      rw [hn, Option.map_some, Option.some.injEq, Prod.mk.injEq] at hnumber
      simp [hnumber.2]

instance (x : Binary64) : Decidable x.ReadsBack := decidable_of_iff _ Binary64.readsBack_iff.symm

/-- The numbers `0.5` and `0.9050989501864115`. -/
example : Binary64.ReadsBack ⟨0x3FE0000000000000⟩ ∧ ¬ Binary64.ReadsBack ⟨0x3FECF69212D639EC⟩ := by
  decide +kernel

namespace Argument

def floats : Argument → List Binary64
  | float x => [x]
  | null | integer _ | text _ | blob _ => []

theorem nesting_toJson (a : Argument) : a.toJson.nesting = 1 := by
  cases a <;> rfl

/-- The argument as it is read from its own JSON. -/
def reread? (a : Argument) : Option Argument := a.toJson.reread.bind (ofJson? .inner)

theorem reread?_iff (a : Argument) : a.reread? = some a ↔ ∀ x ∈ a.floats, x.ReadsBack := by
  cases a with
  | null => exact iff_of_true rfl nofun
  | integer value => exact iff_of_true rfl nofun
  | text value => exact iff_of_true rfl nofun
  | blob base64 => exact iff_of_true rfl nofun
  | float x =>
    have hread : (float x).reread? = ((Json.float x).reread.bind Json.asFloat?).map float := by
      rw [reread?, toJson, Json.reread_object, Json.rereadMembers_cons, Json.rereadMembers_cons]
      cases (Json.float x).reread with
      | none => rfl
      | some v => exact Option.map_eq_bind.symm
    have hinj : Function.Injective float := fun _ _ h => Argument.float.inj h
    rw [hread, ← Option.map_some, (Option.map_injective hinj).eq_iff, ← Binary64.readsBack_iff,
      floats, List.forall_mem_singleton]

end Argument

namespace StreamRequest

def floats : StreamRequest → List Binary64
  | execute _ args => args.flatMap Argument.floats
  | close => []

theorem nesting_toJson_le (s : StreamRequest) : s.toJson.nesting ≤ 4 := by
  cases s with
  | close => decide
  | execute sql args =>
    have hargs : Json.itemsNesting (args.map Argument.toJson) ≤ 1 := by
      refine Json.itemsNesting_le (List.forall_mem_map.2 fun a _ => ?_)
      rw [a.nesting_toJson]
    simp only [toJson, Json.nesting, Json.membersNesting]
    omega

/-- The entry as it is read from its own JSON. -/
def reread? (s : StreamRequest) : Option StreamRequest := s.toJson.reread.bind ofJson?

theorem reread?_iff (s : StreamRequest) : s.reread? = some s ↔ ∀ x ∈ s.floats, x.ReadsBack := by
  cases s with
  | close => exact iff_of_true rfl nofun
  | execute sql args =>
    have hread : (execute sql args).reread? = (args.mapM Argument.reread?).map (execute sql) := by
      unfold Argument.reread?
      rw [reread?, toJson, Json.reread_object, Json.rereadMembers_cons, Json.rereadMembers_cons,
        Json.reread_object, Json.rereadMembers_cons, Json.rereadMembers_cons, Json.reread_array,
        Json.rereadItems_map, ← mapM_bind_mapM]
      cases args.mapM fun (a : Argument) => a.toJson.reread with
      | none => rfl
      | some items => exact Option.map_eq_bind.symm
    have hinj : Function.Injective (execute sql) := fun _ _ h => (StreamRequest.execute.inj h).2
    rw [hread, ← Option.map_some, (Option.map_injective hinj).eq_iff, mapM_eq_some_self_iff,
      floats, List.forall_mem_flatMap]
    exact forall₂_congr fun a _ => a.reread?_iff

end StreamRequest

namespace PipelineRequest

def floats (r : PipelineRequest) : List Binary64 := r.requests.flatMap StreamRequest.floats

/-- What is read from the text of a request: its baton, and each entry as it is read alone. -/
theorem parse?_text (r : PipelineRequest) :
    parse? r.text = (r.requests.mapM StreamRequest.reread?).map (⟨r.baton, ·⟩) := by
  obtain ⟨baton, requests⟩ := r
  have hn : Json.itemsNesting (requests.map StreamRequest.toJson) ≤ 4 :=
    Json.itemsNesting_le (List.forall_mem_map.2 fun s _ => s.nesting_toJson_le)
  unfold StreamRequest.reread?
  rw [parse?, text, toJson, ← mapM_bind_mapM]
  cases baton with
  | none =>
    dsimp only
    rw [Json.wanted?_print (by simp) (by simp only [Json.membersNesting, Json.nesting]; omega),
      Json.rereadMembers_cons, Json.reread_array, Json.rereadItems_map]
    cases requests.mapM fun (s : StreamRequest) => s.toJson.reread with
    | none => rfl
    | some items => exact Option.map_eq_bind.symm
  | some baton =>
    dsimp only
    rw [Json.wanted?_print (by simp) (by simp only [Json.membersNesting, Json.nesting]; omega),
      Json.rereadMembers_cons, Json.rereadMembers_cons, Json.reread_array, Json.rereadItems_map]
    cases requests.mapM fun (s : StreamRequest) => s.toJson.reread with
    | none => rfl
    | some items => exact Option.map_eq_bind.symm

/-- The text of a request is read as the request itself exactly when all its floats read back. -/
theorem parse?_text_iff (r : PipelineRequest) :
    parse? r.text = some r ↔ ∀ x ∈ r.floats, x.ReadsBack := by
  have hinj : Function.Injective (PipelineRequest.mk r.baton) := fun _ _ h =>
    (PipelineRequest.mk.inj h).2
  have hr : some r = (some r.requests).map (PipelineRequest.mk r.baton) := rfl
  rw [parse?_text, hr, (Option.map_injective hinj).eq_iff, mapM_eq_some_self_iff,
    floats, List.forall_mem_flatMap]
  exact forall₂_congr fun s _ => s.reread?_iff

example :
    let r : PipelineRequest := ⟨some "\"\x01", [.close]⟩
    parse? r.text = some r := by
  decide +kernel

end PipelineRequest

end RecordMapper
