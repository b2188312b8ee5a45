import RecordMapper.Derive.Meaning
import RecordMapper.Proofs.Derive.Quotation
/-!
The mapping of an expansion declares what its record describes: read back call by call, its tokens
give the table, the columns and the joins of the record.
-/

namespace RecordMapper

open Derive Derive.Token

namespace Derive

def PlainStorage.toClass : PlainStorage → StorageClass
  | integer => .integer
  | real => .real
  | text => .text
  | blob => .blob

namespace FieldSpec

def storageClass (facts : TypeFacts) (f : FieldSpec) : StorageClass :=
  match f.marks.vector, f.marks.storage? with
  | some size, _ => .vector size.value.toUInt64
  | none, some storage => storage.toClass
  | none, none => .ofNative (facts.native f.type)

def column (facts : TypeFacts) (f : FieldSpec) : Column where
  field := f.name
  name := f.columnName
  storage := f.storageClass facts
  nullable := facts.nullable f.type
  unique := f.marks.unique
  primaryKey := f.marks.key
  index := f.marks.index.map fun name => ⟨name.map (·.value)⟩

end FieldSpec

def JoinSpec.join (facts : TypeFacts) (j : JoinSpec) : Join where
  leftField := j.left
  right := facts.record j.target
  rightField := j.right
  indexed := j.index

/-- The declaration that a record describes. -/
def RecordSpec.declaration (facts : TypeFacts) (r : RecordSpec) : Declaration where
  name := r.name
  table := r.table.map (·.value)
  columns := r.mapped.map (·.column facts)
  joins := r.joins.map (·.join facts)

section

variable {kind : Token → Bool} {token : Token} {after : List Token}

theorem splitLast?_eq_none (h : ∀ t ∈ after, kind t = false) : splitLast? kind after = none := by
  induction after with
  | nil => rfl
  | cons t after ih =>
    obtain ⟨ht, hafter⟩ := List.forall_mem_cons.1 h
    simp [splitLast?, ih hafter, ht]

theorem splitLast?_append (before : List Token) (hk : kind token = true)
    (h : ∀ t ∈ after, kind t = false) :
    splitLast? kind (before ++ token :: after) = some (before, after) := by
  induction before with
  | nil => simp [splitLast?, splitLast?_eq_none h, hk]
  | cons t before ih => simp [splitLast?, ih]

end

/-- The last `as` is the one behind the type. -/
theorem primitive?_primitive (f : FieldSpec) {item : String} (hi : item ≠ "as") :
    primitive? item (f.primitive item) = some f.type := by
  let tail := library ["Primitive"] ++ [sign '>'] ++ colons ++ [.word item]
  have htail : ∀ t ∈ tail, Token.isWord "as" t = false := by
    simp [tail, library, path, colons, twoMarks, sign, Token.isWord, hi]
  have hsplit : splitLast? (Token.isWord "as") (f.type ++ .word "as" :: tail) =
      some (f.type, tail) := splitLast?_append f.type rfl htail
  have htokens : f.primitive item = sign '<' :: (f.type ++ .word "as" :: tail) := by
    simp [FieldSpec.primitive, tail]
  have hread (tokens : List Token) : primitive? item (sign '<' :: tokens) =
      (splitLast? (Token.isWord "as") tokens).bind (seenAs? item) := rfl
  rw [htokens, hread, hsplit]
  exact if_pos rfl

theorem runCalls?_call {σ : Type} (method : σ → String → List Token → Option σ) (s : σ)
    (name : String) (arguments rest : List Token) :
    runCalls? method s (call name arguments ++ rest) =
      (method s name arguments).bind (runCalls? method · rest) := rfl

variable {facts : TypeFacts}

namespace FieldSpec

theorem ofTokens?_storageTokens (f : FieldSpec) :
    StorageClass.ofTokens? facts f.storageTokens = some (f.storageClass facts) := by
  rw [storageTokens, storageClass]
  cases f.marks.vector with
  | some size => rfl
  | none =>
    cases f.marks.storage? with
    | some storage => cases storage <;> rfl
    | none =>
      have hread (arguments : List Token) :
          StorageClass.ofTokens? facts
              (library ["StorageClass", "from_type"] ++ [parens arguments]) =
            (primitive? "TYPE" arguments).map fun type => .ofNative (facts.native type) := rfl
      exact (hread _).trans (by rw [primitive?_primitive f (by decide)]; rfl)

/-! What each call makes of a column. -/

variable (f : FieldSpec) (c : Column) (rest : List Token)

theorem runCalls?_columnName (hc : c.name = f.name) :
    runCalls? (Column.method? facts) c (f.columnNameCall ++ rest) =
      runCalls? (Column.method? facts) { c with name := f.columnName } rest := by
  unfold columnNameCall columnName
  cases f.marks.columnName? with
  | some name =>
    have hmethod : c.method? facts "column_name" [ofText name] =
        some { c with name := TextLiteral.value ⟨Text.quote name⟩ } := rfl
    exact (runCalls?_call ..).trans (by rw [hmethod, TextLiteral.value_quote]; rfl)
  | none => rw [List.nil_append, Option.getD_none, ← hc]

theorem runCalls?_nullable :
    runCalls? (Column.method? facts) c (call "nullable" (f.primitive "NULLABLE") ++ rest) =
      runCalls? (Column.method? facts) { c with nullable := facts.nullable f.type } rest := by
  have hmethod : c.method? facts "nullable" (f.primitive "NULLABLE") =
      (primitive? "NULLABLE" (f.primitive "NULLABLE")).map fun type =>
        { c with nullable := facts.nullable type } := rfl
  rw [runCalls?_call, hmethod, primitive?_primitive f (by decide)]
  rfl

theorem runCalls?_key (hc : c.primaryKey = false) :
    runCalls? (Column.method? facts) c
        ((if f.marks.key then call "primary_key" [] else []) ++ rest) =
      runCalls? (Column.method? facts) { c with primaryKey := f.marks.key } rest := by
  cases f.marks.key with
  | true => rfl
  | false =>
    cases c
    cases hc
    rfl

theorem runCalls?_unique (hc : c.unique = false) :
    runCalls? (Column.method? facts) c
        ((if f.marks.unique then call "unique" [] else []) ++ rest) =
      runCalls? (Column.method? facts) { c with unique := f.marks.unique } rest := by
  cases f.marks.unique with
  | true => rfl
  | false =>
    cases c
    cases hc
    rfl

theorem runCalls?_index (hc : c.index = none) :
    runCalls? (Column.method? facts) c f.indexCall =
      some { c with index := f.marks.index.map fun name => ⟨name.map (·.value)⟩ } := by
  unfold indexCall
  match f.marks.index with
  | some (some name) => rfl
  | some none => rfl
  | none =>
    cases c
    cases hc
    rfl

/-- The expression of a column gives the column that the field describes. -/
theorem ofTokens?_columnTokens :
    Column.ofTokens? facts f.columnTokens = some (f.column facts) := by
  have hnew (field : TextLiteral) (storage calls : List Token) :
      Column.ofTokens? facts (library ["Column", "new"] ++
          ([parens ([.literal (.text field), comma] ++ storage)] ++ calls)) =
        (StorageClass.ofTokens? facts storage).bind fun storage =>
          runCalls? (Column.method? facts) { field := field.value, storage } calls := rfl
  simp only [columnTokens, List.append_assoc]
  rw [ofText, hnew, TextLiteral.value_quote, ofTokens?_storageTokens, Option.bind_some,
    runCalls?_columnName f _ _ rfl, runCalls?_nullable, runCalls?_key f _ _ rfl,
    runCalls?_unique f _ _ rfl, runCalls?_index f _ rfl]
  rfl

end FieldSpec

theorem ofTokens?_recordRef (facts : TypeFacts) (target rest : List Token)
    (hrest : ∀ t ∈ rest, Token.isMark '>' t = false) :
    RecordRef.ofTokens? facts
        (library ["RecordRef", "of"] ++ colons ++ [sign '<'] ++ target ++
          (sign '>' :: parens [] :: rest)) = some (facts.record target, rest) := by
  have hafter : ∀ t ∈ parens [] :: rest, Token.isMark '>' t = false :=
    List.forall_mem_cons.2 ⟨rfl, hrest⟩
  have hread (tokens : List Token) :
      RecordRef.ofTokens? facts (library ["RecordRef", "of"] ++ colons ++ [sign '<'] ++ tokens) =
        (splitLast? (Token.isMark '>') tokens).bind (RecordRef.ofType? facts) := rfl
  rw [List.append_assoc _ target, hread, splitLast?_append target rfl hafter]
  rfl

/-- The expression of a join gives the join that the record describes. -/
theorem JoinSpec.ofTokens?_joinTokens (j : JoinSpec) :
    Join.ofTokens? facts j.joinTokens = some (j.join facts) := by
  have hright := ofTokens?_recordRef facts j.target [comma, ofText j.right, comma]
    (by simp [comma, sign, ofText, Token.isMark])
  have hnew (left : TextLiteral) (inner calls : List Token) :
      Join.ofTokens? facts (library ["JoinNavigation", "new"] ++
          [parens (.literal (.text left) :: comma :: inner)] ++ calls) =
        (RecordRef.ofTokens? facts inner).bind (Join.ofRight? left.value calls) := rfl
  have hread (left : String) (right : TextLiteral) (calls : List Token) :
      Join.ofRight? left calls (facts.record j.target, [comma, .literal (.text right), comma]) =
        runCalls? Join.method?
          { leftField := left, right := facts.record j.target, rightField := right.value } calls :=
    rfl
  rw [joinTokens, ofText, hnew, hright, TextLiteral.value_quote, ofText, Option.bind_some, hread,
    TextLiteral.value_quote, join]
  cases j.index <;> rfl

namespace RecordSpec

/-! What the calls make of a declaration. -/

variable (d : Declaration) (rest : List Token)

theorem runCalls?_table (r : RecordSpec) (hd : d.table = none) :
    runCalls? (Declaration.method? facts) d (r.tableCall ++ rest) =
      runCalls? (Declaration.method? facts) { d with table := r.table.map (·.value) } rest := by
  unfold tableCall
  cases r.table with
  | some table => rfl
  | none =>
    cases d
    cases hd
    rfl

theorem runCalls?_columns (fields : List FieldSpec) :
    runCalls? (Declaration.method? facts) d
        (fields.flatMap (fun f => call "column" f.columnTokens) ++ rest) =
      runCalls? (Declaration.method? facts)
        { d with columns := d.columns ++ fields.map (·.column facts) } rest := by
  induction fields generalizing d with
  | nil => rw [List.map_nil, List.append_nil]; rfl
  | cons f fields ih =>
    have hmethod : d.method? facts "column" f.columnTokens =
        (Column.ofTokens? facts f.columnTokens).map fun c =>
          { d with columns := d.columns ++ [c] } := rfl
    rw [List.flatMap_cons, List.append_assoc, runCalls?_call, hmethod, f.ofTokens?_columnTokens,
      Option.map_some, Option.bind_some, ih, List.append_assoc]
    rfl

theorem runCalls?_joins (joins : List JoinSpec) :
    runCalls? (Declaration.method? facts) d (joins.flatMap fun j => call "join" j.joinTokens) =
      some { d with joins := d.joins ++ joins.map (·.join facts) } := by
  induction joins generalizing d with
  | nil => rw [List.map_nil, List.append_nil]; rfl
  | cons j joins ih =>
    have hmethod : d.method? facts "join" j.joinTokens =
        (Join.ofTokens? facts j.joinTokens).map fun j =>
          { d with joins := d.joins ++ [j] } := rfl
    rw [List.flatMap_cons, runCalls?_call, hmethod, j.ofTokens?_joinTokens, Option.map_some,
      Option.bind_some, ih, List.append_assoc]
    rfl

/-- The mapping is declared as the record describes it. -/
theorem ofTokens?_mappingTokens (r : RecordSpec) :
    Declaration.ofTokens? facts r.mappingTokens = some (r.declaration facts) := by
  have hnew (name : TextLiteral) (calls : List Token) :
      Declaration.ofTokens? facts
          (library ["RecordMapping", "builder"] ++ ([parens [.literal (.text name)]] ++
            (calls ++ call "build" []))) =
        (splitLast? (Token.isMark '.') (calls ++ call "build" [])).bind
          (Declaration.ofCalls? facts name.value) := rfl
  have hsplit (calls : List Token) : splitLast? (Token.isMark '.') (calls ++ call "build" []) =
      some (calls, [.word "build", parens []]) :=
    splitLast?_append calls rfl (by simp [parens, Token.isMark])
  have htokens : r.mappingTokens = library ["RecordMapping", "builder"] ++
      ([parens [ofText r.name]] ++ (r.tableCall ++
        (r.mapped.flatMap (fun f => call "column" f.columnTokens) ++
          r.joins.flatMap fun j => call "join" j.joinTokens) ++ call "build" [])) := by
    simp only [mappingTokens, List.append_assoc]
  rw [htokens, ofText, hnew, hsplit, Option.bind_some, TextLiteral.value_quote]
  refine (runCalls?_table _ _ r rfl).trans ?_
  rw [runCalls?_columns, runCalls?_joins]
  rfl

/-- The mapping is found in the expansion as its function's body. -/
theorem mappingBody?_expansion (r : RecordSpec) :
    mappingBody? r.expansion = some r.mappingTokens := by
  have hlast (before inner : List Token) :
      lastBraces? (before ++ [.word "const", .word "_", sign ':', parens [], sign '=',
        braces inner, sign ';']) = some inner := by
    rw [lastBraces?, List.reverse_append]
    rfl
  rw [mappingBody?, expansion, hlast]
  rfl

end RecordSpec

end Derive

end RecordMapper
