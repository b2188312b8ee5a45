import RecordMapper.Sql.Select
/-!
Reading the tokens of a condition with the operator precedence of SQLite, and what is read from the
tokens of a filter. A name or a bound value is one token.
-/

namespace RecordMapper.Sql

/-- What joins two operands. A null test is one against null. -/
inductive Connective
  | disj | conj
  | op (o : Operator)
  | is (negated : Bool)
  | like
  deriving DecidableEq, Repr

/-- How tightly a connective binds. Negation, at level 3, binds between `AND` and comparisons. -/
def Connective.level : Connective → Nat
  | disj => 1
  | conj => 2
  | op .eq | op .ne | is _ | like => 4
  | op .lt | op .le | op .gt | op .ge => 5
  | op .add | op .sub => 6
  | op .mul | op .div | op .rem => 7

/-- A condition as it is read. -/
inductive Tree
  | name (name : String)
  | null
  | bound (value : Value)
  | neg (operand : Tree)
  | binary (connective : Connective) (left right : Tree)
  | member (operand : Tree) (items : List Value)
  deriving Repr

/-- What waits for an operand on its right. -/
inductive Frame
  | neg
  | left (operand : Tree) (connective : Connective)
  deriving Repr

namespace Frame

def level : Frame → Nat
  | neg => 3
  | left _ c => c.level

def apply : Frame → Tree → Tree
  | neg, t => .neg t
  | left l c, t => .binary c l t

end Frame

/-- What was read within the current parentheses: the frames, innermost first, and the operand that
follows them. -/
structure Reading where
  frames : List Frame
  tree : Tree
  deriving Repr

namespace Reading

/-- Gives the operand to the frames that bind at least as tightly as what comes next. -/
def reduce (level : Nat) : List Frame → Tree → Reading
  | [], t => ⟨[], t⟩
  | f :: fs, t => if level ≤ f.level then reduce level fs (f.apply t) else ⟨f :: fs, t⟩

/-- Gives the operand to all frames. -/
def complete (r : Reading) : Tree := r.frames.foldl (fun t f => f.apply t) r.tree

/-- The frames when a connective follows. -/
def extend (r : Reading) (c : Connective) : List Frame :=
  let r := reduce c.level r.frames r.tree
  .left r.tree c :: r.frames

/-- The reading when a null test follows. -/
def nullTest (r : Reading) (negated : Bool) : Reading := ⟨r.extend (.is negated), .null⟩

/-- The membership test binds like a comparison. -/
def member (r : Reading) (items : List Value) : Reading :=
  let r := reduce 4 r.frames r.tree
  ⟨r.frames, .member r.tree items⟩

end Reading

/-- What a reader expects, within the frames of the parentheses that are open. -/
inductive Reader
  | operand (outer : List (List Frame)) (frames : List Frame)
  | connective (outer : List (List Frame)) (reading : Reading)
  /-- The parenthesis before the items of a membership test. -/
  | items (outer : List (List Frame)) (reading : Reading)
  | item (outer : List (List Frame)) (reading : Reading) (before : List Value)
  /-- A comma or the end of the items. -/
  | comma (outer : List (List Frame)) (reading : Reading) (before : List Value)
  deriving Repr

namespace Reader

def step : Reader → Token → Option Reader
  | operand outer frames, .opening => some (operand (frames :: outer) [])
  | operand outer frames, .neg => some (operand outer (.neg :: frames))
  | operand outer frames, .name n => some (connective outer ⟨frames, .name n⟩)
  | operand outer frames, .null => some (connective outer ⟨frames, .null⟩)
  | operand outer frames, .bound v => some (connective outer ⟨frames, .bound v⟩)
  | connective outer r, .conj => some (operand outer (r.extend .conj))
  | connective outer r, .disj => some (operand outer (r.extend .disj))
  | connective outer r, .op o => some (operand outer (r.extend (.op o)))
  | connective outer r, .isLike => some (operand outer (r.extend .like))
  | connective outer r, .isNull => some (connective outer (r.nullTest false))
  | connective outer r, .isNotNull => some (connective outer (r.nullTest true))
  | connective outer r, .isIn => some (items outer r)
  | connective (frames :: outer) r, .closing => some (connective outer ⟨frames, r.complete⟩)
  | items outer r, .opening => some (item outer r [])
  | item outer r before, .bound v => some (comma outer r (before ++ [v]))
  | comma outer r before, .comma => some (item outer r before)
  | comma outer r before, .closing => some (connective outer (r.member before))
  | _, _ => none

def run (r : Reader) (tokens : List Token) : Option Reader := tokens.foldlM step r

/-- The tree of a condition that ends here. -/
def finish : Reader → Option Tree
  | connective [] r => some r.complete
  | _ => none

theorem run_append (r : Reader) (a b : List Token) :
    r.run (a ++ b) = (r.run a).bind (·.run b) := by
  simp only [run, List.foldlM_append]
  rfl

theorem run_cons (r : Reader) (t : Token) (ts : List Token) :
    r.run (t :: ts) = (r.step t).bind (·.run ts) := rfl

end Reader

def readTokens (tokens : List Token) : Option Tree :=
  ((Reader.operand [] []).run tokens).bind Reader.finish

namespace Filter

/-- The condition that a filter stands for. -/
def tree : Filter → Tree
  | column name => .name name
  | null => .null
  | bound value => .bound value
  | conj l r => .binary .conj l.tree r.tree
  | disj l r => .binary .disj l.tree r.tree
  | neg e => .neg e.tree
  | binary op l r => .binary (.op op) l.tree r.tree
  | hasValue e => .binary (.is true) e.tree .null
  | nullTest negated e => .binary (.is negated) e.tree .null
  | member e items => .member e.tree items
  | like name pattern => .binary .like (.name name) (.bound (.text pattern))

/-- What is read from the tokens of a filter after some frames. -/
def scan : Filter → List Frame → Reading
  | column name, fs => ⟨fs, .name name⟩
  | null, fs => ⟨fs, .null⟩
  | bound value, fs => ⟨fs, .bound value⟩
  | conj l r, fs => ⟨fs, (r.scan ((l.scan []).extend .conj)).complete⟩
  | disj l r, fs => ⟨fs, (r.scan ((l.scan []).extend .disj)).complete⟩
  | neg e, fs => ⟨.neg :: fs, (e.scan []).complete⟩
  | binary op l r, fs => ⟨fs, (r.scan ((l.scan []).extend (.op op))).complete⟩
  | hasValue e, fs => (e.scan fs).nullTest true
  | nullTest negated e, fs => ⟨fs, ((e.scan []).nullTest negated).complete⟩
  | member e items, fs => (e.scan fs).member items
  | like name pattern, fs => ⟨Reading.extend ⟨fs, .name name⟩ .like, .bound (.text pattern)⟩

theorem run_items (outer : List (List Frame)) (r : Reading) {items : List Value}
    (before : List Value)
    (h : items ≠ []) :
    (Reader.item outer r before).run ((items.map Token.bound).intersperse .comma ++ [.closing]) =
      some (.connective outer (r.member (before ++ items))) := by
  induction items generalizing before with
  | nil => exact absurd rfl h
  | cons v vs ih =>
    cases vs with
    | nil => rfl
    | cons w ws =>
      have hi := ih (before ++ [v]) (List.cons_ne_nil w ws)
      rw [List.append_assoc, List.singleton_append] at hi
      exact hi

/-- Every membership test has items. -/
def HasItems : Filter → Prop
  | column _ | null | bound _ | like .. => True
  | conj l r | disj l r | binary _ l r => l.HasItems ∧ r.HasItems
  | neg e | hasValue e | nullTest _ e => e.HasItems
  | member e items => e.HasItems ∧ items ≠ []

/-- Two operands in parentheses are read apart from what is around them. -/
theorem run_pair {l r : Filter} {t : Token} {c : Connective}
    (hl : ∀ outer fs, (Reader.operand outer fs).run l.tokens = some (.connective outer (l.scan fs)))
    (hr : ∀ outer fs, (Reader.operand outer fs).run r.tokens = some (.connective outer (r.scan fs)))
    (ht : ∀ outer x, Reader.step (.connective outer x) t = some (.operand outer (x.extend c)))
    (outer : List (List Frame)) (fs : List Frame) :
    (Reader.operand outer fs).run (.opening :: l.tokens ++ t :: r.tokens ++ [.closing]) =
      some (.connective outer ⟨fs, (r.scan ((l.scan []).extend c)).complete⟩) := by
  have hopen : Reader.step (.operand outer fs) .opening = some (.operand (fs :: outer) []) := rfl
  rw [List.append_assoc, List.cons_append, List.cons_append, Reader.run_cons, hopen,
    Option.bind_some, Reader.run_append, hl, Option.bind_some, Reader.run_cons, ht,
    Option.bind_some, Reader.run_append, hr, Option.bind_some]
  rfl

theorem run_tokens {f : Filter} (h : f.HasItems) (outer : List (List Frame)) (fs : List Frame) :
    (Reader.operand outer fs).run f.tokens = some (.connective outer (f.scan fs)) := by
  induction f generalizing outer fs with
  | column | null | bound | like => rfl
  | conj l r ihl ihr => exact run_pair (ihl h.1) (ihr h.2) (fun _ _ => rfl) outer fs
  | disj l r ihl ihr => exact run_pair (ihl h.1) (ihr h.2) (fun _ _ => rfl) outer fs
  | binary op l r ihl ihr => exact run_pair (ihl h.1) (ihr h.2) (fun _ _ => rfl) outer fs
  | neg e ih =>
    have hopen : (Reader.operand outer fs).run (.neg :: .opening :: e.tokens ++ [.closing]) =
        (Reader.operand ((.neg :: fs) :: outer) []).run (e.tokens ++ [.closing]) := rfl
    rw [tokens, hopen, Reader.run_append, ih h, Option.bind_some]
    rfl
  | hasValue e ih =>
    rw [tokens, Reader.run_append, ih h, Option.bind_some]
    rfl
  | nullTest negated e ih =>
    have hopen : (Reader.operand outer fs).run (.opening :: e.tokens ++
        [if negated then .isNotNull else .isNull, .closing]) =
          (Reader.operand (fs :: outer) []).run (e.tokens ++
            [if negated then .isNotNull else .isNull, .closing]) := rfl
    rw [tokens, hopen, Reader.run_append, ih h, Option.bind_some]
    cases negated <;> rfl
  | member e items ih =>
    have hitems (r : Reading) : (Reader.connective outer r).run (.isIn :: .opening ::
        ((items.map Token.bound).intersperse .comma ++ [.closing])) =
          (Reader.item outer r []).run ((items.map Token.bound).intersperse .comma ++ [.closing]) :=
      rfl
    rw [tokens, List.append_assoc, Reader.run_append, ih h.1, Option.bind_some, List.cons_append,
      List.cons_append, hitems, run_items outer _ [] h.2]
    rfl

end Filter

/-- The tokens of conditions that all have to hold. -/
def conditionTokens (fs : List Filter) : List Token :=
  ((fs.map Filter.tokens).intersperse [.conj]).flatten

theorem Select.whereClause_eq (s : Select) : s.whereClause =
    if s.filters.isEmpty then []
    else .text " WHERE " :: (conditionTokens s.filters).map Token.fragment := by
  have hmap (fs : List Filter) : ((fs.map Filter.fragments).intersperse [.text " AND "]).flatten =
      (conditionTokens fs).map Token.fragment := by
    induction fs with
    | nil => rfl
    | cons f fs ih =>
      cases fs with
      | nil => simp [conditionTokens, Filter.fragments]
      | cons g gs =>
        simp only [List.map_cons, conditionTokens, List.intersperse_cons_cons, List.flatten_cons,
          List.map_append, Filter.fragments] at ih ⊢
        rw [ih]
        rfl
  rw [whereClause, hmap]

end RecordMapper.Sql
