import RecordMapper.Proofs.Number.Spelling
import RecordMapper.Proofs.Query.Scope
import RecordMapper.Statement.Basic
/-!
Question marks in the text of statements. Every bound value is written as one, and there are no
others unless a name has one.
-/

namespace RecordMapper

namespace Text

def Unmarked (s : String) : Prop := '?' ∉ s.toList

instance (s : String) : Decidable (Unmarked s) := inferInstanceAs (Decidable ('?' ∉ s.toList))

@[simp] theorem unmarked_append {a b : String} :
    Unmarked (a ++ b) ↔ Unmarked a ∧ Unmarked b := by
  simp [Unmarked]

theorem Unmarked.intercalate {sep : String} {l : List String} (hs : Unmarked sep)
    (hl : ∀ s ∈ l, Unmarked s) : Unmarked (sep.intercalate l) := by
  induction l with
  | nil => simp [Unmarked]
  | cons s l ih =>
    have h := hl s List.mem_cons_self
    have hi := ih fun t ht => hl t (.tail _ ht)
    rw [Unmarked] at h
    rw [Unmarked, String.toList_intercalate] at hi ⊢
    cases l with
    | nil => simpa using h
    | cons t l =>
      rw [List.map_cons, List.map_cons, List.intercalate_cons_cons, List.mem_append,
        List.mem_append, not_or, not_or]
      exact ⟨⟨h, hs⟩, hi⟩

theorem Unmarked.join {l : List String} (hl : ∀ s ∈ l, Unmarked s) :
    Unmarked (String.join l) := by
  rw [Unmarked, String.toList_join, List.mem_flatMap]
  rintro ⟨s, hs, hm⟩
  exact hl s hs hm

theorem Unmarked.nameList {names : List String} (h : ∀ n ∈ names, Unmarked n) :
    Unmarked (Sql.nameList names) :=
  .intercalate (by decide) h

end Text

open Text Sql

theorem unmarked_of_spelled {s : String} (h : Spelled s.toList) : Unmarked s :=
  h.not_mem (by decide)

theorem Numeral.unmarked_ofNat (n : Nat) : Unmarked (ofNat n) :=
  unmarked_of_spelled (spelled_ofNat n)

theorem Numeral.unmarked_ofInt (i : Int) : Unmarked (ofInt i) :=
  unmarked_of_spelled (spelled_ofInt i)

theorem Binary32.unmarked_plainText (x : Binary32) : Unmarked x.plainText :=
  unmarked_of_spelled (x.datum.spelled_plainText .single)

theorem StorageClass.unmarked_sqlType (s : StorageClass) : Unmarked s.sqlType := by
  cases s with
  | vector size =>
    rw [sqlType, unmarked_append, unmarked_append]
    exact ⟨⟨by decide, Numeral.unmarked_ofNat _⟩, by decide⟩
  | _ => decide

theorem Operator.unmarked_symbol (op : Operator) : Unmarked op.symbol := by
  cases op <;> decide

namespace Sql

def Fragment.Unmarked : Fragment → Prop
  | text s => Text.Unmarked s
  | bound _ => True

instance : DecidablePred Fragment.Unmarked
  | .text s => inferInstanceAs (Decidable (Text.Unmarked s))
  | .bound _ => .isTrue trivial

theorem placeholderCount_append (a b : String) :
    Statement.placeholderCount (a ++ b) =
      Statement.placeholderCount a + Statement.placeholderCount b := by
  simp [Statement.placeholderCount]

theorem placeholderCount_eq_zero {s : String} (h : Text.Unmarked s) :
    Statement.placeholderCount s = 0 :=
  List.count_eq_zero.2 h

/-- A text has as many question marks as its fragments bind values. -/
theorem placeholderCount_textOf {fragments : List Fragment} (h : ∀ f ∈ fragments, f.Unmarked) :
    Statement.placeholderCount (textOf fragments) = (paramsOf fragments).length := by
  induction fragments with
  | nil => rfl
  | cons f fs ih =>
    have hf := h f List.mem_cons_self
    have hi := ih fun g hg => h g (.tail _ hg)
    rw [textOf_cons, placeholderCount_append, hi]
    cases f with
    | text s =>
      rw [Fragment.written, placeholderCount_eq_zero hf, Nat.zero_add]
      rfl
    | bound v =>
      have hmark : Statement.placeholderCount "?" = 1 := by decide
      rw [Fragment.written, hmark, Nat.add_comm]
      rfl

theorem flatMap_intersperse {α β : Type} {f : α → List β} {sep : α} (h : f sep = [])
    (l : List α) : (l.intersperse sep).flatMap f = l.flatMap f := by
  induction l with
  | nil => rfl
  | cons a l ih =>
    cases l with
    | nil => rfl
    | cons b l =>
      rw [List.intersperse_cons_cons, List.flatMap_cons, List.flatMap_cons, ih, h, List.nil_append]
      rfl

@[simp] theorem paramsOf_nil : paramsOf [] = [] := rfl

@[simp] theorem paramsOf_text_cons (s : String) (fs : List Fragment) :
    paramsOf (.text s :: fs) = paramsOf fs := rfl

@[simp] theorem paramsOf_bound_cons (v : Value) (fs : List Fragment) :
    paramsOf (.bound v :: fs) = v :: paramsOf fs := rfl

theorem paramsOf_flatten (l : List (List Fragment)) : paramsOf l.flatten = l.flatMap paramsOf := by
  induction l with
  | nil => rfl
  | cons a l ih => rw [List.flatten_cons, paramsOf_append, ih, List.flatMap_cons]

theorem paramsOf_commaSeparated (items : List (List Fragment)) :
    paramsOf (commaSeparated items) = items.flatMap paramsOf := by
  rw [commaSeparated, paramsOf_flatten]
  exact flatMap_intersperse rfl items

theorem mem_of_mem_intersperse {α : Type} {a sep : α} {l : List α} (h : a ∈ l.intersperse sep) :
    a = sep ∨ a ∈ l := by
  induction l with
  | nil => cases h
  | cons b l ih =>
    cases l with
    | nil => exact .inr h
    | cons c l =>
      rw [List.intersperse_cons_cons] at h
      rcases List.mem_cons.1 h with rfl | h
      · exact .inr List.mem_cons_self
      · rcases List.mem_cons.1 h with rfl | h
        · exact .inl rfl
        · exact (ih h).imp_right (.tail _)

theorem unmarked_commaSeparated {items : List (List Fragment)}
    (h : ∀ item ∈ items, ∀ f ∈ item, f.Unmarked) : ∀ f ∈ commaSeparated items, f.Unmarked := by
  intro f hf
  obtain ⟨item, hi, hf⟩ := List.mem_flatten.1 hf
  rcases mem_of_mem_intersperse hi with rfl | hi
  · rw [List.mem_singleton.1 hf]
    decide
  · exact h item hi f hf

namespace Filter

theorem unmarked_fragments {f : Filter} (h : ∀ n ∈ f.columnNames, Text.Unmarked n) :
    ∀ x ∈ f.fragments, x.Unmarked := by
  intro x hx
  obtain ⟨t, ht, rfl⟩ := List.mem_map.1 hx
  cases t with
  | name n => exact h n (List.mem_filterMap.2 ⟨_, ht, rfl⟩)
  | op o =>
    rw [Token.fragment, Fragment.Unmarked, unmarked_append, unmarked_append]
    exact ⟨⟨by decide, o.unmarked_symbol⟩, by decide⟩
  | bound v => trivial
  | _ => decide

end Filter
end Sql
end RecordMapper
