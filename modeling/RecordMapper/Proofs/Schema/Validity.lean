import Mathlib.Data.List.Nodup
import RecordMapper.Schema.Declaration
/-!
What every mapping that was built satisfies.
-/

namespace RecordMapper

open Text

theorem find?_eq_some_of_unique {α : Type} {p : α → Bool} {l : List α} {a : α} (ha : a ∈ l)
    (hp : p a = true) (hu : ∀ b ∈ l, p b = true → b = a) : l.find? p = some a := by
  cases hf : l.find? p with
  | none => exact absurd hp (List.find?_eq_none.1 hf a ha)
  | some b => rw [hu b (List.mem_of_find?_eq_some hf) (List.find?_some hf)]

/-- Names without repetition, up to the case of ASCII letters. -/
def DistinctNames (names : List String) : Prop := (names.map lower).Nodup

instance (names : List String) : Decidable (DistinctNames names) :=
  inferInstanceAs (Decidable (names.map lower).Nodup)

/-- Of things with distinct names two with one name are the same. -/
theorem DistinctNames.eq {α : Type} {f : α → String} {l : List α} (h : DistinctNames (l.map f))
    {a b : α} (ha : a ∈ l) (hb : b ∈ l) (he : lower (f a) = lower (f b)) : a = b := by
  rw [DistinctNames, List.map_map] at h
  exact List.inj_on_of_nodup_map h ha hb he

namespace Mapping

structure Valid (m : Mapping) : Prop where
  table : isBlankText m.table = false
  key : ∃ k, m.columns.filter (·.primaryKey) = [k] ∧
    (k.storage = .integer ∨ k.storage = .text) ∧ k.nullable = false
  names : DistinctNames (m.columns.map Column.name)
  vectors : ∀ c ∈ m.columns, c.storage ≠ .vector 0

theorem distinct_of_firstDuplicate {seen : List String} {columns : List Column}
    (h : firstDuplicate? seen columns = none) :
    DistinctNames (columns.map Column.name) ∧ ∀ c ∈ columns, lower c.name ∉ seen := by
  induction columns generalizing seen with
  | nil => exact ⟨List.nodup_nil, by simp⟩
  | cons c cs ih =>
    simp only [firstDuplicate?] at h
    split at h
    next => cases h
    next hc =>
      obtain ⟨hp, hs⟩ := ih h
      refine ⟨List.nodup_cons.2 ⟨fun hm => ?_, hp⟩, fun d hd => ?_⟩
      · rw [List.map_map] at hm
        obtain ⟨d, hd, he⟩ := List.mem_map.1 hm
        exact hs d hd (by rw [← he]; exact List.mem_cons_self)
      · rcases List.mem_cons.1 hd with rfl | hd
        · exact hc
        · exact fun hm => hs d hd (.tail _ hm)

theorem firstDuplicate_of_distinct {seen : List String} {columns : List Column}
    (hd : DistinctNames (columns.map Column.name)) (hs : ∀ c ∈ columns, lower c.name ∉ seen) :
    firstDuplicate? seen columns = none := by
  induction columns generalizing seen with
  | nil => rfl
  | cons c columns ih =>
    obtain ⟨hc, hd⟩ := List.nodup_cons.1 hd
    obtain ⟨hfirst, hrest⟩ := List.forall_mem_cons.1 hs
    rw [firstDuplicate?]
    refine (if_neg hfirst).trans (ih hd fun d hm hseen => ?_)
    rcases List.mem_cons.1 hseen with he | hseen
    · exact hc (he ▸ List.mem_map_of_mem (List.mem_map_of_mem hm))
    · exact hrest d hm hseen

theorem valid_of_check {m : Mapping} (h : m.check = .ok ()) : m.Valid := by
  have ht : m.checkTable = .ok () := by
    cases he : m.checkTable <;> simp [check, he, bind, Except.bind] at h ⊢
  have hk : m.checkKey = .ok () := by
    cases he : m.checkKey <;> simp [check, ht, he, bind, Except.bind] at h ⊢
  have hn : m.checkColumnNames = .ok () := by
    cases he : m.checkColumnNames <;> simp [check, ht, hk, he, bind, Except.bind] at h ⊢
  have hv : m.checkVectors = .ok () := by
    simpa [check, ht, hk, hn, bind, Except.bind] using h
  refine ⟨?_, ?_, ?_, ?_⟩
  · simp only [checkTable] at ht
    split at ht
    next => cases ht
    next hb => simpa using hb
  · simp only [checkKey] at hk
    split at hk
    next => cases hk
    next => cases hk
    next k hf =>
      refine ⟨k, hf, ?_⟩
      split at hk
      next => cases hk
      next hs =>
        split at hk
        next => cases hk
        next hnull =>
          simp only [StorageClass.isInteger, StorageClass.isText, Bool.and_eq_true,
            Bool.not_eq_true', beq_eq_false_iff_ne, ne_eq, not_and, not_not] at hs
          refine ⟨?_, by simpa using hnull⟩
          by_cases hi : k.storage = .integer
          · exact .inl hi
          · exact .inr (hs hi)
  · simp only [checkColumnNames] at hn
    split at hn
    next => cases hn
    next hd => exact (distinct_of_firstDuplicate hd).1
  · simp only [checkVectors] at hv
    split at hv
    next => cases hv
    next hf =>
      intro c hc he
      have hne := List.find?_eq_none.1 hf c hc
      simp [he] at hne

theorem valid_of_build {d : Declaration} {m : Mapping} (h : d.build = .ok m) : m.Valid := by
  simp only [Declaration.build, bind, Except.bind] at h
  split at h
  next => cases h
  next hc =>
    cases h
    exact valid_of_check hc

variable {m : Mapping}

theorem columnByName?_eq_some {name : String} {c : Column}
    (h : m.columnByName? name = some c) : c ∈ m.columns ∧ lower c.name = lower name := by
  have hn := List.find?_some (p := fun c : Column => sameName c.name name) h
  exact ⟨List.mem_of_find?_eq_some h, sameName_iff.1 hn⟩

theorem columnByName?_congr {a b : String} (h : lower a = lower b) :
    m.columnByName? a = m.columnByName? b := by
  have hp : (fun c : Column => sameName c.name a) = fun c => sameName c.name b := by
    funext c
    rw [sameName, sameName, h]
  exact congrArg (List.find? · m.columns) hp

theorem Valid.columnByName (h : m.Valid) {c : Column} (hc : c ∈ m.columns) {name : String}
    (hn : lower c.name = lower name) : m.columnByName? name = some c := by
  apply find?_eq_some_of_unique hc (sameName_iff.2 hn)
  intro d hd hs
  exact h.names.eq hd hc ((sameName_iff.1 hs).trans hn.symm)

theorem Valid.eq_of_primaryKey (h : m.Valid) {a b : Column} (ha : a ∈ m.columns)
    (hb : b ∈ m.columns) (hak : a.primaryKey = true) (hbk : b.primaryKey = true) : a = b := by
  obtain ⟨k, hk, _⟩ := h.key
  have honly {c : Column} (hc : c ∈ m.columns) (hck : c.primaryKey = true) : c = k :=
    List.mem_singleton.1 (hk ▸ List.mem_filter.2 ⟨hc, hck⟩)
  rw [honly ha hak, honly hb hbk]

theorem Valid.columns_ne_nil (h : m.Valid) : m.columns ≠ [] := by
  obtain ⟨k, hk, _⟩ := h.key
  intro he
  simp [he] at hk

end Mapping

end RecordMapper
