import RecordMapper.Schema.Declaration
/-!
A column marked as the key because of its field's name, and what is told of columns found first.
-/

namespace RecordMapper

namespace Declaration

/-- Marking a key changes nothing else of any column. -/
theorem map_markKey {β : Type} {g : Column → β} (hg : ∀ c, g { c with primaryKey := true } = g c)
    (field : String) (columns : List Column) :
    (markKey field columns).map g = columns.map g := by
  induction columns with
  | nil => rfl
  | cons c columns ih =>
    rw [markKey]
    split
    next => rw [List.map_cons, List.map_cons, hg]
    next => rw [List.map_cons, List.map_cons, ih]

theorem map_withDefaultKey {β : Type} {g : Column → β}
    (hg : ∀ c, g { c with primaryKey := true } = g c) (columns : List Column) :
    (withDefaultKey columns).map g = columns.map g := by
  rw [withDefaultKey]
  split
  next => rfl
  next =>
    split
    next => exact map_markKey hg _ _
    next => rfl

theorem filter_markKey (field : String) {columns : List Column}
    (h : ∀ c ∈ columns, c.primaryKey = false) :
    (markKey field columns).filter (·.primaryKey) =
      ((columns.find? (·.field == field)).map fun c => { c with primaryKey := true }).toList := by
  induction columns with
  | nil => rfl
  | cons c columns ih =>
    obtain ⟨hc, hrest⟩ := List.forall_mem_cons.1 h
    have hnone : columns.filter (·.primaryKey) = [] := by
      rw [List.filter_eq_nil_iff]
      exact fun d hd => Bool.eq_false_iff.1 (hrest d hd)
    rw [markKey, List.find?_cons]
    split
    next he =>
      subst he
      rw [List.filter_cons_of_pos rfl, hnone, beq_self_eq_true]
      rfl
    next he =>
      rw [List.filter_cons_of_neg (by simp [hc]), ih hrest, beq_false_of_ne he]

end Declaration

theorem findSome?_find? {α β : Type} (p : α → β → Bool) (l : List α) (xs : List β) :
    l.findSome? (fun a => xs.find? (p a)) =
      (l.find? fun a => xs.any (p a)).bind fun a => xs.find? (p a) := by
  induction l with
  | nil => rfl
  | cons a l ih =>
    rw [List.findSome?_cons, List.find?_cons]
    cases hx : xs.find? (p a) with
    | some x =>
      have hany : xs.any (p a) = true :=
        List.any_eq_true.2 ⟨x, List.mem_of_find?_eq_some hx, List.find?_some hx⟩
      rw [hany]
      exact hx.symm
    | none =>
      have hany : xs.any (p a) = false := by
        rw [Bool.eq_false_iff]
        intro h
        obtain ⟨x, hm, hp⟩ := List.any_eq_true.1 h
        exact List.find?_eq_none.1 hx x hm hp
      rw [hany]
      exact ih

/-- What is told of the first element found depends on what is told of each. -/
theorem map_find? {α β : Type} (p : α → Bool) (f : α → β) (l : List α) :
    (l.find? p).map f = ((l.map fun a => (f a, p a)).find? Prod.snd).map Prod.fst := by
  rw [List.find?_map, Option.map_map]
  rfl

end RecordMapper
