import RecordMapper.Value
/-!
Statement text with its bound values in place: a bound value is written as a placeholder, so the
parameters of a statement come in the order of its placeholders.
-/

namespace RecordMapper.Sql

inductive Fragment
  | text (s : String)
  | bound (value : Value)
  deriving Repr

def Fragment.written : Fragment → String
  | text s => s
  | bound _ => "?"

def Fragment.param? : Fragment → Option Value
  | text _ => none
  | bound value => some value

/-- The statement text. -/
def textOf (fragments : List Fragment) : String := String.join (fragments.map Fragment.written)

/-- The bound values, in the order of their placeholders. -/
def paramsOf (fragments : List Fragment) : List Value := fragments.filterMap Fragment.param?

theorem textOf_append (a b : List Fragment) : textOf (a ++ b) = textOf a ++ textOf b := by
  simp [textOf]

theorem textOf_cons (f : Fragment) (fs : List Fragment) :
    textOf (f :: fs) = f.written ++ textOf fs :=
  textOf_append [f] fs

theorem paramsOf_append (a b : List Fragment) : paramsOf (a ++ b) = paramsOf a ++ paramsOf b :=
  List.filterMap_append

/-- Items with a comma between any two. -/
def commaSeparated (items : List (List Fragment)) : List Fragment :=
  (items.intersperse [.text ", "]).flatten

/-- Names with a comma between any two. -/
def nameList (names : List String) : String := ", ".intercalate names

end RecordMapper.Sql
