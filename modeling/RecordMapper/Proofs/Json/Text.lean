import RecordMapper.Json.Members
import RecordMapper.Proofs.Json.Numbers
import RecordMapper.Proofs.Json.Strings
/-!
What the reader makes of the text of a value: the value itself, but for its numbers, which are read
one by one.
-/

namespace RecordMapper.Json

mutual

/-- The value with each number as it is read from its own text. -/
def reread : Json → Option Json
  | null => some null
  | bool b => some (bool b)
  | integer i => (number? (Numeral.ofInt i).toList).map (·.1)
  | float x =>
    if x.datum.isFinite then (number? x.jsonText.toList).map (·.1) else some null
  | string s => some (string s)
  | array items => (rereadItems items).map array
  | object members => (rereadMembers members).map object

def rereadItems : List Json → Option (List Json)
  | [] => some []
  | v :: rest => v.reread.bind fun v => (rereadItems rest).map (v :: ·)

def rereadMembers : List (String × Json) → Option Members
  | [] => some []
  | (name, v) :: rest => v.reread.bind fun v => (rereadMembers rest).map ((name, v) :: ·)

end

theorem reread_array (items : List Json) :
    (array items).reread = (rereadItems items).map array := by
  rw [reread]

theorem reread_object (members : List (String × Json)) :
    (object members).reread = (rereadMembers members).map object := by
  rw [reread]

theorem rereadItems_cons (v : Json) (rest : List Json) :
    rereadItems (v :: rest) = v.reread.bind fun v => (rereadItems rest).map (v :: ·) := by
  rw [rereadItems]

theorem rereadMembers_cons (name : String) (v : Json) (rest : List (String × Json)) :
    rereadMembers ((name, v) :: rest) =
      v.reread.bind fun v => (rereadMembers rest).map ((name, v) :: ·) := by
  rw [rereadMembers]

theorem rereadItems_map {α : Type} (f : α → Json) (l : List α) :
    rereadItems (l.map f) = l.mapM fun a => (f a).reread := by
  induction l with
  | nil => rfl
  | cons a l ih =>
    rw [List.map_cons, rereadItems_cons, ih, List.mapM_cons]
    cases (f a).reread with
    | none => rfl
    | some v => cases l.mapM fun a => (f a).reread <;> rfl

mutual

/-- How many arrays and objects stand within each other. -/
def nesting : Json → Nat
  | array items => itemsNesting items + 1
  | object members => membersNesting members + 1
  | null | bool _ | integer _ | float _ | string _ => 0

def itemsNesting : List Json → Nat
  | [] => 0
  | v :: rest => max v.nesting (itemsNesting rest)

def membersNesting : List (String × Json) → Nat
  | [] => 0
  | (_, v) :: rest => max v.nesting (membersNesting rest)

end

theorem itemsNesting_le {vs : List Json} {n : Nat} (h : ∀ v ∈ vs, v.nesting ≤ n) :
    itemsNesting vs ≤ n := by
  induction vs with
  | nil => exact Nat.zero_le n
  | cons v vs ih =>
    rw [List.forall_mem_cons] at h
    rw [itemsNesting]
    exact Nat.max_le.2 ⟨h.1, ih h.2⟩

theorem skipSpace_cons {c : Char} (h : isSpace c = false) (rest : List Char) :
    skipSpace (c :: rest) = c :: rest :=
  List.dropWhile_cons_of_neg (by simp [h])

section

variable {c : Char} (h : Numeral.isDigit c = true ∨ c = '-')

include h

theorem ne_of_startsNumber {d : Char} (hd : Numeral.isDigit d = false ∧ d ≠ '-') : c ≠ d := by
  rintro rfl
  rcases h with h | rfl
  · rw [hd.1] at h
    cases h
  · exact hd.2 rfl

theorem isSpace_of_startsNumber : isSpace c = false := by
  simp only [isSpace, Bool.or_eq_false_iff, beq_eq_false_iff_ne]
  exact ⟨⟨⟨ne_of_startsNumber h (by decide), ne_of_startsNumber h (by decide)⟩,
    ne_of_startsNumber h (by decide)⟩, ne_of_startsNumber h (by decide)⟩

end

/-- A value starts with something that is neither a blank nor the end of an array. -/
theorem exists_chars_cons (v : Json) :
    ∃ c rest, v.chars = c :: rest ∧ isSpace c = false ∧ c ≠ ']' := by
  have hnumber {text : List Char} (h : IsNumber text) :
      ∃ c rest, text = c :: rest ∧ isSpace c = false ∧ c ≠ ']' := by
    obtain ⟨c, rest, rfl, hc⟩ := h.exists_cons
    exact ⟨c, rest, rfl, isSpace_of_startsNumber hc, ne_of_startsNumber hc (by decide)⟩
  cases v with
  | null => exact ⟨'n', _, rfl, rfl, by decide⟩
  | bool b =>
    cases b with
    | true => exact ⟨'t', _, rfl, rfl, by decide⟩
    | false => exact ⟨'f', _, rfl, rfl, by decide⟩
  | integer i =>
    rw [chars]
    exact hnumber (isNumber_ofInt i)
  | float x =>
    rw [chars]
    cases hx : x.datum.isFinite with
    | true => exact hnumber (isNumber_jsonText hx)
    | false =>
      rw [jsonText_of_not_finite hx]
      exact ⟨'n', _, rfl, rfl, by decide⟩
  | string s =>
    rw [chars]
    exact ⟨'"', _, rfl, rfl, by decide⟩
  | array items =>
    cases items <;> rw [chars] <;> exact ⟨'[', _, rfl, rfl, by decide⟩
  | object members =>
    rcases members with _ | ⟨⟨name, v⟩, rest⟩ <;> rw [chars] <;>
      exact ⟨openBrace, _, rfl, rfl, by decide⟩

section

variable (fuel depth : Nat)

theorem value?_string (s : String) (rest : List Char) :
    value? (fuel + 1) depth (quoted s ++ rest) = some (.string s, rest) := by
  have hbody : quoted s ++ rest = '"' :: (s.toList.flatMap escape ++ '"' :: rest) := by
    simp [quoted]
  have hspace : isSpace '"' = false := rfl
  simp only [hbody, value?, skipSpace_cons hspace, stringBody?_escape, Option.map_some]

theorem value?_null (rest : List Char) :
    value? (fuel + 1) depth (null.chars ++ rest) = some (null, rest) := by
  rfl

theorem value?_bool (b : Bool) (rest : List Char) :
    value? (fuel + 1) depth ((bool b).chars ++ rest) = some (bool b, rest) := by
  cases b <;> rfl

theorem value?_number {text rest : List Char} (h : IsNumber text) (hr : Boundary rest) :
    value? (fuel + 1) depth (text ++ rest) = (number? text).map fun found => (found.1, rest) := by
  obtain ⟨c, cs, rfl, hc⟩ := h.exists_cons
  have hne {d : Char} (hd : Numeral.isDigit d = false ∧ d ≠ '-') : c ≠ d :=
    ne_of_startsNumber hc hd
  have hquote : c ≠ '"' := hne (by decide)
  have hbracket : c ≠ '[' := hne (by decide)
  have hbrace : c ≠ openBrace := hne (by decide)
  have hn : c ≠ 'n' := hne (by decide)
  have ht : c ≠ 't' := hne (by decide)
  have hf : c ≠ 'f' := hne (by decide)
  rw [← number?_append h hr, List.cons_append]
  simp only [value?, skipSpace_cons (isSpace_of_startsNumber hc), if_neg hbrace, if_neg hn,
    if_neg ht, if_neg hf]

theorem value?_emptyArray (rest : List Char) :
    value? (fuel + 1) (depth + 1) ('[' :: ']' :: rest) = some (array [], rest) :=
  rfl

theorem value?_array (v : Json) (rest : List Char) :
    value? (fuel + 1) (depth + 1) ('[' :: (v.chars ++ rest)) =
      (items? fuel depth (v.chars ++ rest)).map fun found => (array found.1, found.2) := by
  obtain ⟨c, text, hc, hs, hclose⟩ := exists_chars_cons v
  have hspace : isSpace '[' = false := rfl
  rw [hc, List.cons_append]
  simp only [value?, skipSpace_cons hspace, skipSpace_cons hs, Nat.add_one_ne_zero, if_false,
    Nat.add_sub_cancel]
  split
  next heq => exact absurd (List.cons.inj heq).1 hclose
  next => rfl

theorem value?_emptyObject (rest : List Char) :
    value? (fuel + 1) (depth + 1) (openBrace :: closeBrace :: rest) = some (object [], rest) :=
  rfl

theorem value?_object (name : String) (rest : List Char) :
    value? (fuel + 1) (depth + 1) (openBrace :: (quoted name ++ rest)) =
      (members? fuel depth (quoted name ++ rest)).map fun found => (object found.1, found.2) :=
  rfl

theorem memberName?_quoted (name : String) (rest : List Char) :
    memberName? (quoted name ++ ':' :: rest) = some (name, rest) := by
  have hbody : quoted name ++ ':' :: rest =
      '"' :: (name.toList.flatMap escape ++ '"' :: ':' :: rest) := by simp [quoted]
  have hquote : isSpace '"' = false := rfl
  have hcolon : isSpace ':' = false := rfl
  simp only [hbody, memberName?, skipSpace_cons hquote, stringBody?_escape,
    Option.bind_eq_bind, Option.bind_some, skipSpace_cons hcolon]

end

theorem boundary_comma (rest : List Char) : Boundary (',' :: rest) := boundary_cons (by decide) rest

theorem boundary_bracket (rest : List Char) : Boundary (']' :: rest) :=
  boundary_cons (by decide) rest

theorem boundary_brace (rest : List Char) : Boundary (closeBrace :: rest) :=
  boundary_cons (by decide) rest

/-- A value is read from its text, whatever stands behind it. Two units of fuel for each character
are enough. -/
def ReadsAs (v : Json) : Prop :=
  ∀ {fuel depth : Nat} {rest : List Char}, 2 * v.chars.length ≤ fuel → v.nesting ≤ depth →
    Boundary rest → value? fuel depth (v.chars ++ rest) = v.reread.map (·, rest)

theorem exists_fuel (v : Json) {fuel : Nat} (h : 2 * v.chars.length ≤ fuel) :
    ∃ n, fuel = n + 1 := by
  obtain ⟨c, text, hc, _⟩ := exists_chars_cons v
  rw [hc, List.length_cons] at h
  exact ⟨fuel - 1, by omega⟩

theorem readsAs_integer (i : Int) : (integer i).ReadsAs := by
  intro fuel depth rest hf _ hr
  obtain ⟨fuel, rfl⟩ := exists_fuel _ hf
  rw [chars, reread, value?_number fuel depth (isNumber_ofInt i) hr, Option.map_map]
  rfl

theorem readsAs_float (x : Binary64) : (float x).ReadsAs := by
  intro fuel depth rest hf _ hr
  obtain ⟨fuel, rfl⟩ := exists_fuel _ hf
  rw [chars, reread]
  cases hx : x.datum.isFinite with
  | true =>
    rw [value?_number fuel depth (isNumber_jsonText hx) hr, if_pos rfl, Option.map_map]
    rfl
  | false =>
    rw [jsonText_of_not_finite hx]
    exact value?_null fuel depth rest

section

variable {fuel depth : Nat} {rest : List Char}

theorem items?_last {v : Json} (h : v.ReadsAs) (hf : 2 * v.chars.length ≤ fuel)
    (hn : v.nesting ≤ depth) : items? (fuel + 1) depth (v.chars ++ ']' :: rest) =
      v.reread.map fun v => ([v], rest) := by
  have hspace : isSpace ']' = false := rfl
  rw [items?, h hf hn (boundary_bracket rest)]
  cases v.reread with
  | none => rfl
  | some v =>
    simp only [Option.map_some, Option.bind_eq_bind, Option.bind_some, skipSpace_cons hspace]

theorem items?_more {v : Json} (h : v.ReadsAs) (hf : 2 * v.chars.length ≤ fuel)
    (hn : v.nesting ≤ depth) : items? (fuel + 1) depth (v.chars ++ ',' :: rest) =
      v.reread.bind fun v => (items? fuel depth rest).map fun found => (v :: found.1, found.2) := by
  have hspace : isSpace ',' = false := rfl
  rw [items?, h hf hn (boundary_comma rest)]
  cases v.reread with
  | none => rfl
  | some v =>
    simp only [Option.map_some, Option.bind_eq_bind, Option.bind_some, skipSpace_cons hspace]
    cases items? fuel depth rest <;> rfl

theorem items?_chars {v : Json} {vs : List Json} (h : ∀ w ∈ v :: vs, w.ReadsAs)
    (hf : 2 * (v.chars ++ itemChars vs).length < fuel) (hn : itemsNesting (v :: vs) ≤ depth) :
    items? fuel depth (v.chars ++ (itemChars vs ++ rest)) =
      (rereadItems (v :: vs)).map (·, rest) := by
  induction vs generalizing v fuel with
  | nil =>
    obtain ⟨fuel, rfl⟩ : ∃ n, fuel = n + 1 := ⟨fuel - 1, by omega⟩
    rw [List.length_append] at hf
    rw [itemsNesting, Nat.max_le] at hn
    rw [itemChars, List.singleton_append, items?_last (h v List.mem_cons_self) (by omega) hn.1,
      rereadItems]
    cases v.reread <;> rfl
  | cons w ws ih =>
    obtain ⟨fuel, rfl⟩ : ∃ n, fuel = n + 1 := ⟨fuel - 1, by omega⟩
    rw [itemChars, List.cons_append, List.length_append, List.length_cons] at hf
    rw [itemsNesting, Nat.max_le] at hn
    have hrest : items? fuel depth (w.chars ++ (itemChars ws ++ rest)) =
        (rereadItems (w :: ws)).map (·, rest) :=
      ih (List.forall_mem_cons.1 h).2 (by omega) hn.2
    rw [itemChars, List.cons_append, List.cons_append, List.append_assoc,
      items?_more (h v List.mem_cons_self) (by omega) hn.1, hrest,
      rereadItems_cons v]
    cases v.reread with
    | none => rfl
    | some v => cases rereadItems (w :: ws) <;> rfl

end

/-- What follows a member: the end of the object, or a comma and the next members. -/
def afterMember? (read? : List Char → Option (Members × List Char)) (name : String) (v : Json)
    (text : List Char) : Option (Members × List Char) :=
  match skipSpace text with
  | [] => none
  | c :: rest =>
    if c = closeBrace then some ([(name, v)], rest)
    else if c = ',' then (read? rest).map fun found => ((name, v) :: found.1, found.2)
    else none

/-- What reads the members with the names in question one after the other. -/
def ReadsMembers (depth : Nat) (wanted : String → Prop)
    (read? : Nat → List Char → Option (Members × List Char)) : Prop :=
  ∀ fuel name text, wanted name → read? (fuel + 1) (quoted name ++ ':' :: text) =
    (value? fuel depth text).bind fun found => afterMember? (read? fuel) name found.1 found.2

theorem readsMembers_members? (depth : Nat) :
    ReadsMembers depth (fun _ => True) (members? · depth) := by
  intro fuel name text _
  simp only [members?, memberName?_quoted, Option.bind_eq_bind, Option.bind_some, afterMember?,
    Option.map_eq_bind]
  rfl

theorem readsMembers_wantedFrom? (names : List String) :
    ReadsMembers 126 (· ∈ names) (wantedFrom? names) := by
  intro fuel name text hw
  simp only [wantedFrom?, memberName?_quoted, Option.bind_eq_bind, Option.bind_some, if_pos hw,
    afterMember?, Option.map_eq_bind, Option.bind_assoc]
  rfl

section

variable {depth : Nat} {wanted : String → Prop}
  {read? : Nat → List Char → Option (Members × List Char)} {name : String} {v : Json} {fuel : Nat}
  {rest : List Char}

theorem ReadsMembers.last (hread : ReadsMembers depth wanted read?) (hw : wanted name)
    (h : v.ReadsAs) (hf : 2 * v.chars.length ≤ fuel) (hn : v.nesting ≤ depth) :
    read? (fuel + 1) (quoted name ++ ':' :: (v.chars ++ closeBrace :: rest)) =
      v.reread.map fun v => ([(name, v)], rest) := by
  have hspace : isSpace closeBrace = false := rfl
  rw [hread fuel name _ hw, h hf hn (boundary_brace rest)]
  cases v.reread with
  | none => rfl
  | some v =>
    simp only [Option.map_some, Option.bind_some, afterMember?, skipSpace_cons hspace, if_true]

theorem ReadsMembers.more (hread : ReadsMembers depth wanted read?) (hw : wanted name)
    (h : v.ReadsAs) (hf : 2 * v.chars.length ≤ fuel) (hn : v.nesting ≤ depth) :
    read? (fuel + 1) (quoted name ++ ':' :: (v.chars ++ ',' :: rest)) =
      v.reread.bind fun v =>
        (read? fuel rest).map fun found => ((name, v) :: found.1, found.2) := by
  have hspace : isSpace ',' = false := rfl
  have hbrace : ',' ≠ closeBrace := by decide
  rw [hread fuel name _ hw, h hf hn (boundary_comma rest)]
  cases v.reread with
  | none => rfl
  | some v =>
    simp only [Option.map_some, Option.bind_some, afterMember?, skipSpace_cons hspace,
      if_neg hbrace, if_true]

theorem ReadsMembers.chars (hread : ReadsMembers depth wanted read?)
    {members : List (String × Json)}
    (hw : ∀ m ∈ (name, v) :: members, wanted m.1) (h : ∀ m ∈ (name, v) :: members, m.2.ReadsAs)
    (hf : 2 * (v.chars ++ memberChars members).length < fuel)
    (hn : membersNesting ((name, v) :: members) ≤ depth) :
    read? fuel (quoted name ++ ':' :: (v.chars ++ (memberChars members ++ rest))) =
      (rereadMembers ((name, v) :: members)).map (·, rest) := by
  induction members generalizing name v fuel with
  | nil =>
    obtain ⟨fuel, rfl⟩ : ∃ n, fuel = n + 1 := ⟨fuel - 1, by omega⟩
    rw [List.length_append] at hf
    rw [membersNesting, Nat.max_le] at hn
    have hlast : read? (fuel + 1) (quoted name ++ ':' :: (v.chars ++ closeBrace :: rest)) =
        v.reread.map fun v => ([(name, v)], rest) :=
      hread.last (hw _ List.mem_cons_self) (h _ List.mem_cons_self) (by omega) hn.1
    refine hlast.trans ?_
    rw [rereadMembers]
    cases v.reread <;> rfl
  | cons m members ih =>
    obtain ⟨next, w⟩ := m
    obtain ⟨fuel, rfl⟩ : ∃ n, fuel = n + 1 := ⟨fuel - 1, by omega⟩
    have htext : memberChars ((next, w) :: members) =
        ',' :: (quoted next ++ ':' :: (w.chars ++ memberChars members)) := by simp [memberChars]
    rw [htext] at hf ⊢
    simp only [List.length_append, List.length_cons] at hf
    rw [membersNesting, Nat.max_le] at hn
    have hrest : read? fuel (quoted next ++ ':' :: (w.chars ++ (memberChars members ++ rest))) =
        (rereadMembers ((next, w) :: members)).map (·, rest) :=
      ih (List.forall_mem_cons.1 hw).2 (List.forall_mem_cons.1 h).2
        (by rw [List.length_append]; omega) hn.2
    simp only [List.cons_append, List.append_assoc]
    rw [hread.more (hw _ List.mem_cons_self) (h _ List.mem_cons_self) (by dsimp only; omega) hn.1,
      hrest, rereadMembers_cons name]
    cases v.reread with
    | none => rfl
    | some v => cases rereadMembers ((next, w) :: members) <;> rfl

end

theorem readsAs_array {items : List Json} (h : ∀ v ∈ items, v.ReadsAs) : (array items).ReadsAs := by
  intro fuel depth rest hf hn _
  obtain ⟨fuel, rfl⟩ := exists_fuel _ hf
  rw [nesting] at hn
  obtain ⟨depth, rfl⟩ : ∃ n, depth = n + 1 := ⟨depth - 1, by omega⟩
  cases items with
  | nil => exact value?_emptyArray fuel depth rest
  | cons v vs =>
    have htext : (array (v :: vs)).chars ++ rest =
        '[' :: (v.chars ++ (itemChars vs ++ rest)) := by simp [chars]
    have hitems : items? fuel depth (v.chars ++ (itemChars vs ++ rest)) =
        (rereadItems (v :: vs)).map (·, rest) :=
      items?_chars h (by simp only [chars, List.cons_append, List.length_cons] at hf; omega)
        (by omega)
    rw [htext, reread, value?_array, hitems, Option.map_map, Option.map_map]
    rfl

theorem readsAs_object {members : List (String × Json)} (h : ∀ m ∈ members, m.2.ReadsAs) :
    (object members).ReadsAs := by
  intro fuel depth rest hf hn _
  obtain ⟨fuel, rfl⟩ := exists_fuel _ hf
  rw [nesting] at hn
  obtain ⟨depth, rfl⟩ : ∃ n, depth = n + 1 := ⟨depth - 1, by omega⟩
  match members with
  | [] => exact value?_emptyObject fuel depth rest
  | (name, v) :: members =>
    have htext : (object ((name, v) :: members)).chars ++ rest =
        openBrace :: (quoted name ++ ':' :: (v.chars ++ (memberChars members ++ rest))) := by
      simp [chars, openBrace]
    have hmembers : members? fuel depth
        (quoted name ++ ':' :: (v.chars ++ (memberChars members ++ rest))) =
        (rereadMembers ((name, v) :: members)).map (·, rest) :=
      (readsMembers_members? depth).chars (fun _ _ => trivial) h
        (by
          simp only [chars, List.cons_append, List.length_cons, List.length_append] at hf ⊢
          omega)
        (by omega)
    rw [htext, reread, value?_object, hmembers, Option.map_map, Option.map_map]
    rfl

mutual

theorem readsAs : (v : Json) → v.ReadsAs
  | null => fun hf _ _ => (exists_fuel _ hf).elim fun fuel h => h ▸ value?_null fuel _ _
  | bool b => fun hf _ _ => (exists_fuel _ hf).elim fun fuel h => h ▸ value?_bool fuel _ b _
  | string s => fun hf _ _ => (exists_fuel _ hf).elim fun fuel h => h ▸ value?_string fuel _ s _
  | integer i => readsAs_integer i
  | float x => readsAs_float x
  | array items => readsAs_array (readsAs_items items)
  | object members => readsAs_object (readsAs_members members)

theorem readsAs_items : (items : List Json) → ∀ v ∈ items, v.ReadsAs
  | [] => nofun
  | v :: rest => List.forall_mem_cons.2 ⟨readsAs v, readsAs_items rest⟩

theorem readsAs_members : (members : List (String × Json)) → ∀ m ∈ members, m.2.ReadsAs
  | [] => nofun
  | (_, v) :: rest => List.forall_mem_cons.2 ⟨readsAs v, readsAs_members rest⟩

end

theorem parse?_print {v : Json} (h : v.nesting ≤ 127) : parse? v.print = v.reread := by
  have hvalue : value? (2 * v.chars.length + 2) 127 (v.chars ++ []) = v.reread.map (·, []) :=
    readsAs v (by omega) h boundary_nil
  rw [List.append_nil] at hvalue
  simp only [parse?, print, String.toList_ofList, hvalue]
  cases v.reread <;> rfl

theorem wantedIn?_object (names : List String) (fuel : Nat) (name : String) (rest : List Char) :
    wantedIn? names fuel (openBrace :: (quoted name ++ rest)) =
      wantedFrom? names fuel (quoted name ++ rest) :=
  rfl

/-- An object of which all members are wanted. -/
theorem wanted?_print {names : List String} {members : List (String × Json)}
    (hw : ∀ m ∈ members, m.1 ∈ names) (hn : membersNesting members ≤ 126) :
    wanted? names (object members).print = rereadMembers members := by
  match members with
  | [] => rw [print, chars, wanted?, String.toList_ofList]; rfl
  | (name, v) :: members =>
    have htext : (object ((name, v) :: members)).chars =
        openBrace :: (quoted name ++ ':' :: (v.chars ++ (memberChars members ++ []))) := by
      simp [chars, openBrace]
    have hspace : isSpace openBrace = false := rfl
    have hread : wantedFrom? names (2 * (object ((name, v) :: members)).chars.length + 2)
        (quoted name ++ ':' :: (v.chars ++ (memberChars members ++ []))) =
        (rereadMembers ((name, v) :: members)).map (·, []) :=
      (readsMembers_wantedFrom? names).chars hw (fun m _ => readsAs m.2)
        (by rw [htext]; simp only [List.length_cons, List.length_append]; omega) hn
    rw [wanted?, print, String.toList_ofList]
    simp only [htext, skipSpace_cons hspace, wantedIn?_object] at hread ⊢
    rw [hread]
    cases rereadMembers ((name, v) :: members) <;> rfl

end RecordMapper.Json
