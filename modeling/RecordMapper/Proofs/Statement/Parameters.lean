import RecordMapper.Proofs.Query.Parameters
/-!
The parameters of a statement are its bound values, and its placeholders are as many.
-/

namespace RecordMapper

open Text Sql

theorem Sql.Name.unmarked_text {n : Name} (h : ∀ s ∈ n.segments, Unmarked s) : Unmarked n.text :=
  .intercalate (by decide) h

theorem ColumnDef.unmarked_text {d : ColumnDef} (h : Unmarked d.name) : Unmarked d.text := by
  rw [text]
  split
  · exact unmarked_append.2 ⟨h, by decide⟩
  · have hclauses : Unmarked (if d.primaryKey then " PRIMARY KEY NOT NULL"
        else (if d.notNull then " NOT NULL" else "") ++ (if d.unique then " UNIQUE" else "")) := by
      cases d.primaryKey <;> cases d.notNull <;> cases d.unique <;> decide
    rw [unmarked_append, unmarked_append, unmarked_append]
    exact ⟨⟨⟨h, by decide⟩, d.storage.unmarked_sqlType⟩, hclauses⟩

namespace Statement

/-- The values that a statement binds: the constants of its predicates, the values of a new row, or
those that are assigned and then the key. -/
def constants : Statement → List Value
  | query q => q.constants
  | insert _ _ values => values
  | update _ assignments key => assignments.map Prod.snd ++ [key.2]
  | delete _ key => [key.2]
  | _ => []

/-- The segments of all names in a statement. -/
def segments (catalog : Catalog) : Statement → List String
  | query q => q.names catalog
  | insert table columns _ => table.segments ++ columns.flatMap Name.segments
  | update table assignments key =>
    table.segments ++ assignments.flatMap (·.1.segments) ++ key.1.segments
  | delete table key => table.segments ++ key.1.segments
  | createTable name columns _ => name.segments ++ columns.map ColumnDef.name
  | addColumn table column => table.segments ++ [column.name]
  | dropColumn table column => table.segments ++ column.segments
  | renameColumn table source target => table.segments ++ source.segments ++ target.segments
  | renameTable table target => table.segments ++ target.segments
  | copyTable source target columns =>
    source.segments ++ target.segments ++
      columns.flatMap fun c => c.1.segments ++ c.2.toList.flatMap Name.segments
  | createIndex name table columns _ _ =>
    name.segments ++ table.segments ++ columns.flatMap Name.segments
  | dropIndex name _ | dropTable name _ => name.segments
  | pragma name _ => [name]

def pragmaValue? : Statement → Option String
  | pragma _ value => value
  | _ => none

theorem foldl_write (out : Serialized) (fragments : List Fragment) :
    fragments.foldl Serialized.write out =
      ⟨out.text ++ textOf fragments, out.params ++ paramsOf fragments⟩ := by
  induction fragments generalizing out with
  | nil => simp [textOf]
  | cons f fs ih =>
    have hparams : paramsOf (f :: fs) = f.param?.toList ++ paramsOf fs := by cases f <;> rfl
    rw [List.foldl_cons, ih, textOf_cons, hparams, Serialized.write, String.append_assoc,
      List.append_assoc]

theorem unmarked_names {columns : List Name}
    (h : ∀ n ∈ columns.flatMap Name.segments, Unmarked n) : Unmarked (names columns) := by
  apply Unmarked.nameList
  intro n hn
  obtain ⟨c, hc, rfl⟩ := List.mem_map.1 hn
  exact Name.unmarked_text fun s hs => h s (List.mem_flatMap.2 ⟨c, hc, hs⟩)

theorem unmarked_assignment {a : Name × Value} (h : ∀ s ∈ a.1.segments, Unmarked s) :
    ∀ f ∈ assignment a, f.Unmarked := by
  simp only [assignment, List.forall_mem_cons]
  exact ⟨unmarked_append.2 ⟨Name.unmarked_text h, by decide⟩, trivial, by simp⟩

theorem unmarked_optionalText {present : Bool} {text : String} (h : Unmarked text) :
    Unmarked (optionalText present text) := by
  cases present with
  | false => exact (by decide : Unmarked "")
  | true => exact h

theorem unmarked_copySource {target : Name} {source : Option Name}
    (ht : ∀ s ∈ target.segments, Unmarked s)
    (hs : ∀ s ∈ source.toList.flatMap Name.segments, Unmarked s) :
    Unmarked (copySource target source) := by
  have htarget := Name.unmarked_text ht
  cases source with
  | none => exact unmarked_append.2 ⟨by decide, htarget⟩
  | some source =>
    have hsource : Unmarked source.text := by
      apply Name.unmarked_text
      simpa using hs
    rw [copySource]
    split
    · exact hsource
    · exact unmarked_append.2 ⟨unmarked_append.2 ⟨hsource, by decide⟩, htarget⟩

theorem unmarked_copyColumns {columns : List (Name × Option Name)}
    (h : ∀ n ∈ columns.flatMap fun c => c.1.segments ++ c.2.toList.flatMap Name.segments,
      Unmarked n) :
    Unmarked (names (columns.map Prod.fst)) ∧
      Unmarked (nameList (columns.map fun c => copySource c.1 c.2)) := by
  have hcolumn : ∀ c ∈ columns, (∀ n ∈ c.1.segments, Unmarked n) ∧
      ∀ n ∈ c.2.toList.flatMap Name.segments, Unmarked n := by
    intro c hc
    rw [← List.forall_mem_append]
    exact fun n hn => h n (List.mem_flatMap.2 ⟨c, hc, hn⟩)
  constructor
  · apply unmarked_names
    intro n hn
    obtain ⟨t, ht, hn⟩ := List.mem_flatMap.1 hn
    obtain ⟨c, hc, rfl⟩ := List.mem_map.1 ht
    exact (hcolumn c hc).1 n hn
  · apply Unmarked.nameList
    intro n hn
    obtain ⟨c, hc, rfl⟩ := List.mem_map.1 hn
    exact unmarked_copySource (hcolumn c hc).1 (hcolumn c hc).2

theorem unmarked_plainFragments {catalog : Catalog} {s : Statement}
    (hs : ∀ n ∈ s.segments catalog, Unmarked n) (hp : ∀ v ∈ s.pragmaValue?, Unmarked v) :
    ∀ f ∈ s.plainFragments, f.Unmarked := by
  cases s with
  | query q => simp [plainFragments]
  | insert table columns values =>
    simp only [segments, List.forall_mem_append] at hs
    simp only [plainFragments, List.cons_append, List.forall_mem_cons, List.forall_mem_append]
    refine ⟨?_, unmarked_commaSeparated fun item hi f hf => ?_, by decide, by simp⟩
    · simp only [Fragment.Unmarked, unmarked_append]
      exact ⟨⟨⟨⟨by decide, Name.unmarked_text hs.1⟩, by decide⟩, unmarked_names hs.2⟩, by decide⟩
    · obtain ⟨v, _, rfl⟩ := List.mem_map.1 hi
      rw [List.mem_singleton.1 hf]
      trivial
  | update table assignments key =>
    simp only [segments, List.forall_mem_append] at hs
    obtain ⟨⟨htable, hassigned⟩, hkey⟩ := hs
    simp only [plainFragments, List.cons_append, List.forall_mem_cons, List.forall_mem_append]
    refine ⟨?_, unmarked_commaSeparated fun item hi => ?_, by decide, unmarked_assignment hkey⟩
    · simp only [Fragment.Unmarked, unmarked_append]
      exact ⟨⟨by decide, Name.unmarked_text htable⟩, by decide⟩
    · obtain ⟨a, ha, rfl⟩ := List.mem_map.1 hi
      exact unmarked_assignment fun n hn => hassigned n (List.mem_flatMap.2 ⟨a, ha, hn⟩)
  | delete table key =>
    simp only [segments, List.forall_mem_append] at hs
    simp only [plainFragments, List.forall_mem_cons]
    refine ⟨?_, unmarked_assignment hs.2⟩
    simp only [Fragment.Unmarked, unmarked_append]
    exact ⟨⟨by decide, Name.unmarked_text hs.1⟩, by decide⟩
  | createTable name columns ifNotExists =>
    simp only [segments, List.forall_mem_append] at hs
    have hcolumns : Unmarked (nameList (columns.map ColumnDef.text)) := by
      apply Unmarked.nameList
      intro n hn
      obtain ⟨c, hc, rfl⟩ := List.mem_map.1 hn
      exact ColumnDef.unmarked_text (hs.2 _ (List.mem_map_of_mem hc))
    simp only [plainFragments, List.forall_mem_singleton, Fragment.Unmarked, unmarked_append]
    exact ⟨⟨⟨⟨⟨by decide, unmarked_optionalText (by decide)⟩, Name.unmarked_text hs.1⟩,
      by decide⟩, hcolumns⟩, by decide⟩
  | addColumn table column =>
    simp only [segments, List.forall_mem_append, List.forall_mem_singleton] at hs
    simp only [plainFragments, List.forall_mem_singleton, Fragment.Unmarked, unmarked_append]
    exact ⟨⟨⟨by decide, Name.unmarked_text hs.1⟩, by decide⟩, ColumnDef.unmarked_text hs.2⟩
  | dropColumn table column =>
    simp only [segments, List.forall_mem_append] at hs
    simp only [plainFragments, List.forall_mem_singleton, Fragment.Unmarked, unmarked_append]
    exact ⟨⟨⟨by decide, Name.unmarked_text hs.1⟩, by decide⟩, Name.unmarked_text hs.2⟩
  | renameColumn table source target =>
    simp only [segments, List.forall_mem_append] at hs
    simp only [plainFragments, List.forall_mem_singleton, Fragment.Unmarked, unmarked_append]
    exact ⟨⟨⟨⟨⟨by decide, Name.unmarked_text hs.1.1⟩, by decide⟩, Name.unmarked_text hs.1.2⟩,
      by decide⟩, Name.unmarked_text hs.2⟩
  | renameTable table target =>
    simp only [segments, List.forall_mem_append] at hs
    simp only [plainFragments, List.forall_mem_singleton, Fragment.Unmarked, unmarked_append]
    exact ⟨⟨⟨by decide, Name.unmarked_text hs.1⟩, by decide⟩, Name.unmarked_text hs.2⟩
  | copyTable source target columns =>
    simp only [segments, List.forall_mem_append] at hs
    obtain ⟨⟨hsource, htarget⟩, hcolumns⟩ := hs
    obtain ⟨htargets, hsources⟩ := unmarked_copyColumns hcolumns
    simp only [plainFragments, List.forall_mem_singleton, Fragment.Unmarked, unmarked_append]
    exact ⟨⟨⟨⟨⟨⟨⟨by decide, Name.unmarked_text htarget⟩, by decide⟩, htargets⟩, by decide⟩,
      hsources⟩, by decide⟩, Name.unmarked_text hsource⟩
  | createIndex name table columns unique ifNotExists =>
    simp only [segments, List.forall_mem_append] at hs
    simp only [plainFragments, List.forall_mem_singleton, Fragment.Unmarked, unmarked_append]
    exact ⟨⟨⟨⟨⟨⟨⟨⟨⟨by decide, unmarked_optionalText (by decide)⟩, by decide⟩,
      unmarked_optionalText (by decide)⟩, Name.unmarked_text hs.1.1⟩, by decide⟩,
      Name.unmarked_text hs.1.2⟩, by decide⟩, unmarked_names hs.2⟩, by decide⟩
  | dropIndex name ifExists | dropTable name ifExists =>
    simp only [plainFragments, List.forall_mem_singleton, Fragment.Unmarked, unmarked_append]
    exact ⟨⟨by decide, unmarked_optionalText (by decide)⟩, Name.unmarked_text hs⟩
  | pragma name value =>
    simp only [plainFragments, List.forall_mem_singleton, Fragment.Unmarked, unmarked_append]
    refine ⟨⟨by decide, hs name List.mem_cons_self⟩, ?_⟩
    cases value with
    | none => decide
    | some v => exact unmarked_append.2 ⟨by decide, hp v rfl⟩

variable {catalog : Catalog} {capability : Capability} {s : Statement}

theorem paramsOf_fragments {fs : List Fragment} (h : s.fragments catalog capability = .ok fs) :
    paramsOf fs = s.constants := by
  have hassignment (a : Name × Value) : paramsOf (assignment a) = [a.2] := rfl
  cases s with
  | query q =>
    rw [fragments] at h
    split at h
    next select hs =>
      cases h
      exact constants_toSelect hs
    next => cases h
  | insert table columns values =>
    cases h
    simp only [plainFragments, List.cons_append, paramsOf_text_cons, paramsOf_append,
      paramsOf_commaSeparated, paramsOf_nil, List.append_nil, constants, List.flatMap_map]
    exact List.flatMap_singleton' values
  | update table assignments key =>
    cases h
    simp only [plainFragments, List.cons_append, paramsOf_text_cons, paramsOf_append,
      paramsOf_commaSeparated, constants, List.flatMap_map, hassignment]
    rw [List.map_eq_flatMap]
  | delete table key =>
    cases h
    exact hassignment key
  | _ =>
    cases h
    rfl

theorem unmarked_fragments {fs : List Fragment} (h : s.fragments catalog capability = .ok fs)
    (hs : ∀ n ∈ s.segments catalog, Unmarked n) (hp : ∀ v ∈ s.pragmaValue?, Unmarked v) :
    ∀ f ∈ fs, f.Unmarked := by
  cases s with
  | query q =>
    rw [fragments] at h
    split at h
    next select hq =>
      cases h
      exact Select.unmarked_fragments fun n hn => hs n (names_toSelect hq n hn)
    next => cases h
  | _ =>
    cases h
    exact unmarked_plainFragments hs hp

/-- A statement pushes its constants onto the parameters that are given. Its text has a placeholder
for each of them, and no other question mark unless a name or the value of a pragma has one. -/
theorem serialize_params {given : List Value} {out : Serialized}
    (h : s.serialize catalog capability given = .ok out) :
    out.params = given ++ s.constants ∧
      ((∀ n ∈ s.segments catalog, Unmarked n) → (∀ v ∈ s.pragmaValue?, Unmarked v) →
        placeholderCount out.text = s.constants.length) := by
  obtain ⟨fs, hfs, rfl⟩ := bind_pure_eq_ok_iff.1 h
  rw [foldl_write, paramsOf_fragments hfs]
  refine ⟨rfl, fun hs hp => ?_⟩
  have hend : placeholderCount ";" = 0 := by decide
  rw [String.empty_append, placeholderCount_append, hend, Nat.add_zero,
    placeholderCount_textOf (unmarked_fragments hfs hs hp), paramsOf_fragments hfs]

/-- A null test binds nothing, a list binds its nulls too, and what is given stays in front. -/
theorem serialize_params_accounts :
    let q : Query := ⟨⟨"Account", 0⟩, [
      .filter (.binary .eq (.field "email") (.constant .null)),
      .filter (.conj (.pattern .contains (.field "email") (.constant (.text "?")))
        (.neg (.member (.field "id") (.constant (.list [.bool true, .null]))))),
      .first (some (.binary .ne (.field "active") (.constant (.bool false))))]⟩
    ∃ out, (query q).serialize [.declared accounts] .full [.text "?"] = .ok out ∧
      out.params = [.text "?", .text "%?%", .bool true, .null, .bool false] ∧
      placeholderCount out.text = 4 := by
  intro q
  have h : ∃ out, (query q).serialize [.declared accounts] .full [.text "?"] = .ok out := ⟨_, rfl⟩
  obtain ⟨out, h⟩ := h
  obtain ⟨hparams, hcount⟩ := serialize_params h
  have hsegments : ∀ n ∈ (query q).segments [.declared accounts], Unmarked n := by decide +kernel
  exact ⟨out, h, hparams, hcount hsegments (by simp [pragmaValue?])⟩

/-- The value of a pragma is written as it is, and may have a question mark that is no
placeholder. -/
theorem mark_in_pragma_value :
    let s : Statement := .pragma "foreign_keys" (some "?")
    ∃ out, s.serialize [] .full = .ok out ∧ (∀ n ∈ s.segments [], Unmarked n) ∧
      out.params = [] ∧ placeholderCount out.text = 1 := by
  intro s
  refine ⟨_, rfl, by decide, rfl, by decide⟩

end Statement

end RecordMapper
