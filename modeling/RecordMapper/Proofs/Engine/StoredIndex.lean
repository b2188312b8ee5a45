import RecordMapper.Migration.Uniqueness
import RecordMapper.Proofs.Text.Plain
import RecordMapper.Proofs.Text.Words
import RecordMapper.Sql.Fragment
/-!
Indexes as the engine holds them, and the text that it reports of their definition. Over plain
names, the text says whether the index is unique and whether it is over one column alone.
-/

namespace RecordMapper

open Text Remainders

theorem namesAlone_of_not_mem {name xs : List Char} (h : '(' ∉ xs) :
    namesAlone name xs = false := by
  induction xs with
  | nil => rfl
  | cons x xs ih =>
    simp only [List.mem_cons, not_or] at h
    simp [namesAlone, ih h.2, Ne.symm h.1]

theorem namesAlone_append {name xs rest : List Char} (h : '(' ∉ xs) :
    namesAlone name (xs ++ '(' :: rest) = (closesAround name rest || namesAlone name rest) := by
  induction xs with
  | nil => simp [namesAlone]
  | cons x xs ih =>
    simp only [List.mem_cons, not_or] at h
    simp [namesAlone, ih h.2, Ne.symm h.1]

namespace Remainders

theorem afterBlanks_cons {c : Char} (h : isBlank c = false) (rest : List Char) :
    afterBlanks (c :: rest) = [c :: rest] := by
  simp [afterBlanks, h]

theorem afterMark_cons {c : Char} (h : c ≠ mark) (rest : List Char) :
    afterMark (c :: rest) = [c :: rest] := by
  simp [afterMark, h]

end Remainders

theorem ne_mark_of_isWordChar {c : Char} (h : isWordChar c = true) : c ≠ mark := by
  apply wordChar_induction (p := fun c => c ≠ mark) _ h
  decide +kernel

theorem not_sameFold_punctuation {a t : Char} (ha : isWordChar a = true) (ht : t = ')' ∨ t = ',') :
    sameFold a t = false := by
  have hall : ∀ n : Fin 128, isWordChar (Char.ofNat n) = true →
      (Char.ofNat n).toLower ≠ ')' ∧ (Char.ofNat n).toLower ≠ ',' := by
    decide +kernel
  have hlower := wordChar_induction (p := fun c => c.toLower ≠ ')' ∧ c.toLower ≠ ',') hall ha
  have hlt := toNat_lt_of_isWordChar ha
  rw [Bool.eq_false_iff]
  rcases ht with rfl | rfl
  · rw [ne_eq, sameFold_iff hlt (by decide)]
    exact hlower.1
  · rw [ne_eq, sameFold_iff hlt (by decide)]
    exact hlower.2

/-- After a name at the start of a column, the closing parenthesis follows only when the name is the
whole column and the column the last one. -/
theorem any_afterName {name column : List Char} {t : Char} (hn : ∀ c ∈ name, isWordChar c = true)
    (hc : ∀ c ∈ column, isWordChar c = true) (ht : t = ')' ∨ t = ',') (rest : List Char) :
    (((afterName name (column ++ t :: rest)).flatMap afterMark).flatMap afterBlanks).any
        (fun r => r.head? == some ')') =
      (decide (name.map Char.toLower = column.map Char.toLower) && t == ')') := by
  induction name generalizing column with
  | nil =>
    cases column with
    | nil =>
      have hm : t ≠ mark := by rcases ht with rfl | rfl <;> decide
      have hb : isBlank t = false := by rcases ht with rfl | rfl <;> decide
      simp [afterName, afterMark_cons hm, afterBlanks_cons hb]
    | cons x column =>
      have hx := hc x List.mem_cons_self
      have hp : x ≠ ')' := by
        rintro rfl
        exact absurd hx (by decide)
      simp [afterName, afterMark_cons (ne_mark_of_isWordChar hx),
        afterBlanks_cons (isBlank_of_isWordChar hx), hp]
  | cons a name ih =>
    have ha := hn a List.mem_cons_self
    cases column with
    | nil => simp [afterName, not_sameFold_punctuation ha ht]
    | cons x column =>
      have hx := hc x List.mem_cons_self
      have hcs : ∀ c ∈ column, isWordChar c = true := fun c h => hc c (List.mem_cons_of_mem _ h)
      have hi := ih (fun c h => hn c (List.mem_cons_of_mem _ h)) hcs
      have hs := sameFold_iff (toNat_lt_of_isWordChar ha) (toNat_lt_of_isWordChar hx)
      by_cases he : a.toLower = x.toLower
      · simp only [List.cons_append, afterName, hs.2 he, if_true, hi, List.map_cons, he,
          List.cons.injEq, true_and]
      · have hf : sameFold a x = false := by rw [Bool.eq_false_iff, ne_eq, hs]; exact he
        simp [afterName, hf, he]

theorem closesAround_column {name column : List Char} {t : Char}
    (hn : ∀ c ∈ name, isWordChar c = true) (hc : ∀ c ∈ column, isWordChar c = true)
    (hne : column ≠ []) (ht : t = ')' ∨ t = ',') (rest : List Char) :
    closesAround name (column ++ t :: rest) =
      (decide (name.map Char.toLower = column.map Char.toLower) && t == ')') := by
  rw [← any_afterName hn hc ht rest]
  obtain ⟨x, xs, rfl⟩ := List.exists_cons_of_ne_nil hne
  have hx := hc x List.mem_cons_self
  simp [closesAround, afterBlanks_cons (isBlank_of_isWordChar hx),
    afterMark_cons (ne_mark_of_isWordChar hx)]

theorem not_mem_of_isPlain {s : String} (h : isPlain s = true) {c : Char}
    (hc : isWordChar c = false) : c ∉ s.toList := by
  intro hm
  have hw := isWordChar_of_isPlain h c hm
  simp [hc] at hw

theorem blank_not_mem_upper {s : String} (h : isPlain s = true) :
    ' ' ∉ s.toList.map Char.toUpper := by
  intro hm
  obtain ⟨c, hc, he⟩ := List.mem_map.1 hm
  apply wordChar_induction (p := fun c => c.toUpper ≠ ' ') _ (isWordChar_of_isPlain h c hc) he
  decide +kernel

namespace Engine

/-- What an index was created over. A blank may stand before the columns in its text. -/
structure IndexDefinition where
  unique : Bool
  columns : List String
  spaced : Bool := false
  deriving DecidableEq, Repr

/-- An index. Those that the engine made for a key or a unique column have no definition. -/
structure StoredIndex where
  name : String
  table : String
  definition : Option IndexDefinition := none
  deriving DecidableEq, Repr

namespace StoredIndex

/-- The text before the columns. -/
def heading (i : StoredIndex) (d : IndexDefinition) : String :=
  (if d.unique then "CREATE UNIQUE INDEX " else "CREATE INDEX ") ++ i.name ++ " ON " ++ i.table ++
    if d.spaced then " " else ""

def text (i : StoredIndex) (d : IndexDefinition) : String :=
  i.heading d ++ "(" ++ Sql.nameList d.columns ++ ")"

/-- The index as the engine reports it. -/
def live (i : StoredIndex) : LiveIndex := ⟨i.name, i.table, i.definition.map i.text⟩

/-- All names of a defined index are plain, and it has columns. -/
structure Plain (i : StoredIndex) (d : IndexDefinition) : Prop where
  name : isPlain i.name = true
  table : isPlain i.table = true
  columns : ∀ c ∈ d.columns, isPlain c = true
  nonempty : d.columns ≠ []

theorem toList_nameList_cons (c : String) (cs : List String) :
    (Sql.nameList (c :: cs)).toList =
      c.toList ++ if cs = [] then [] else ',' :: ' ' :: (Sql.nameList cs).toList := by
  cases cs with
  | nil => simp [Sql.nameList]
  | cons c' cs => simp [Sql.nameList]

/-- No column list can complete the mark of a unique index. -/
theorem not_occursIn_columns {columns : List String} (hc : ∀ c ∈ columns, isPlain c = true)
    {before : List Char} (hb : ' ' ∉ before) :
    occursIn ("CREATE".toList ++ ' ' :: "UNIQUE INDEX".toList)
      (before ++ ((Sql.nameList columns).toList ++ [')']).map Char.toUpper) = false := by
  induction columns generalizing before with
  | nil =>
    apply not_occursIn_word
    simpa [Sql.nameList] using hb
  | cons c cs ih =>
    have hu := blank_not_mem_upper (hc c List.mem_cons_self)
    rw [toList_nameList_cons]
    by_cases he : cs = []
    · apply not_occursIn_word
      simpa [he] using ⟨hb, by simpa using hu⟩
    · have hi := ih (fun c h => hc c (List.mem_cons_of_mem _ h)) (List.not_mem_nil (a := ' '))
      have hw : ' ' ∉ before ++ c.toList.map Char.toUpper ++ [','] := by
        simpa using ⟨hb, by simpa using hu⟩
      have hl : "CREATE".toList <:+ before ++ c.toList.map Char.toUpper ++ [','] →
          ¬"UNIQUE INDEX".toList <+: ((Sql.nameList cs).toList ++ [')']).map Char.toUpper := by
        rintro ⟨r, hr⟩
        have hlast := congrArg List.getLast? hr
        simp at hlast
      simpa [he] using not_occursIn_words _ (by decide) hw hl (by simpa using hi)

/-- The mark of a unique index is in its text whatever the names. -/
theorem isUnique_live_of_unique {i : StoredIndex} {d : IndexDefinition}
    (hd : i.definition = some d) (hu : d.unique = true) : i.live.isUnique = true := by
  simp only [live, LiveIndex.isUnique, hd, Option.map_some, upper, String.toList_ofList]
  apply occursIn_of_start
  simp [text, heading, hu]

theorem isUnique_live {i : StoredIndex} {d : IndexDefinition} (hd : i.definition = some d)
    (hp : i.Plain d) : i.live.isUnique = d.unique := by
  cases hu : d.unique with
  | true => exact isUnique_live_of_unique hd hu
  | false =>
    simp only [live, LiveIndex.isUnique, hd, Option.map_some, upper, String.toList_ofList]
    have hT := blank_not_mem_upper hp.table
    have hcols {before : List Char} (hb : ' ' ∉ before) := not_occursIn_columns hp.columns hb
    have htail : occursIn ("CREATE".toList ++ ' ' :: "UNIQUE INDEX".toList)
        ((i.table ++ (if d.spaced then " " else "") ++ "(" ++ Sql.nameList d.columns ++
          ")").toList.map Char.toUpper) = false := by
      cases hs : d.spaced with
      | true =>
        have hb : ' ' ∉ ['('] := by decide
        have hw := not_occursIn_words (i.table.toList.map Char.toUpper) (by decide) hT (by simp)
          (hcols hb)
        simpa using hw
      | false =>
        have hb : ' ' ∉ i.table.toList.map Char.toUpper ++ ['('] := by simpa using hT
        simpa using hcols hb
    have hON := not_occursIn_words "ON".toList (by decide) (by decide)
      (fun h => absurd h (by decide)) htail
    have hN := not_occursIn_words _ (by decide) (blank_not_mem_upper hp.name) (by simp) hON
    have hINDEX := not_occursIn_words "INDEX".toList (by decide) (by decide)
      (fun h => absurd h (by decide)) hN
    have hCREATE := not_occursIn_words "CREATE".toList (by decide) (by decide) (by simp)
      hINDEX
    simpa [text, heading, hu] using hCREATE

theorem not_mem_nameList {names : List String} (h : ∀ n ∈ names, isPlain n = true) {c : Char}
    (hc : isWordChar c = false) (hs : c ∉ [',', ' ']) : c ∉ (Sql.nameList names).toList := by
  induction names with
  | nil => simp [Sql.nameList]
  | cons n ns ih =>
    have hn := not_mem_of_isPlain (h n List.mem_cons_self) hc
    have hi := ih fun m hm => h m (List.mem_cons_of_mem _ hm)
    rw [toList_nameList_cons]
    split
    · simpa using hn
    · simp only [List.mem_cons, List.not_mem_nil, or_false, not_or] at hs
      simp [hn, hi, hs]

/-- A text names a column alone when the index is over that column and no other. -/
theorem namesAlone_text {i : StoredIndex} {d : IndexDefinition} (hp : i.Plain d) {name : String}
    (hn : isPlain name = true) :
    namesAlone name.toList (i.text d).toList = true ↔
      ∃ c, d.columns = [c] ∧ lower c = lower name := by
  obtain ⟨c, cs, hcs⟩ := List.exists_cons_of_ne_nil hp.nonempty
  have hc := hp.columns c (by simp [hcs])
  have hhead : '(' ∉ (i.heading d).toList := by
    have hN := not_mem_of_isPlain hp.name (c := '(') (by decide)
    have hT := not_mem_of_isPlain hp.table (c := '(') (by decide)
    cases hu : d.unique <;> cases hs : d.spaced <;> simp [heading, hu, hs, hN, hT]
  have htail : '(' ∉ (Sql.nameList d.columns).toList ++ [')'] := by
    simpa using not_mem_nameList hp.columns (c := '(') (by decide) (by decide)
  have htext : (i.text d).toList =
      (i.heading d).toList ++ '(' :: ((Sql.nameList d.columns).toList ++ [')']) := by
    simp [text]
  have hw := isWordChar_of_isPlain hn
  have hcw := isWordChar_of_isPlain hc
  rw [htext, namesAlone_append hhead, namesAlone_of_not_mem htail, Bool.or_false, hcs,
    toList_nameList_cons]
  by_cases he : cs = []
  · subst he
    have hclose := closesAround_column hw hcw (toList_ne_nil_of_isPlain hc) (.inl rfl) []
    simp [hclose, lower_eq_iff, eq_comm]
  · have hclose := closesAround_column hw hcw (toList_ne_nil_of_isPlain hc) (.inr rfl)
      (' ' :: ((Sql.nameList cs).toList ++ [')']))
    simp [he, hclose]

end StoredIndex

end Engine

end RecordMapper
