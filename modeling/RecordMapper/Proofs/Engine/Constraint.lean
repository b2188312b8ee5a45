import RecordMapper.Proofs.Engine.Execution
/-!
Columns under UNIQUE constraints. The engine's own indexes do not say which columns they serve, so
the constraints are kept beside the schema.
-/

namespace RecordMapper.Engine

open Text Sql

/-- A database with the columns under a UNIQUE constraint, for each lower-case table name. -/
structure Constrained where
  db : Database
  unique : String → List String

/-- The columns that a definition puts under UNIQUE. A key is constrained as a key. -/
def uniqueNames (columns : List ColumnDef) : List String :=
  (columns.filter fun d => d.unique && !d.isKey).map ColumnDef.name

namespace Constrained

def constraints (s : Constrained) (table : String) : List String := s.unique (lower table)

def put (unique : String → List String) (table : String) (columns : List String) :
    String → List String :=
  fun name => if name = lower table then columns else unique name

/-- Constraints follow their table and their columns. -/
def constraintsAfter (s : Constrained) : Statement → String → List String
  | .createTable name columns _ =>
    if s.db.hasTable name.text then s.unique else put s.unique name.text (uniqueNames columns)
  | .renameColumn table source target =>
    put s.unique table.text ((s.constraints table.text).map fun name =>
      if sameName source.text name then target.text else name)
  | .renameTable table target =>
    put (put s.unique table.text []) target.text (s.constraints table.text)
  | .dropTable name _ => put s.unique name.text []
  | _ => s.unique

/-- A column under a constraint cannot be dropped. -/
def allows (s : Constrained) : Statement → Bool
  | .dropColumn table column => !(s.constraints table.text).any (sameName · column.text)
  | _ => true

def exec (s : Constrained) (statement : Statement) : Option Constrained := do
  let db ← s.db.exec statement
  if s.allows statement then some ⟨db, s.constraintsAfter statement⟩ else none

def run (s : Constrained) (script : List Statement) : Option Constrained := script.foldlM exec s

variable {s s' : Constrained} {table : String}

theorem exec_eq_some {statement : Statement} (h : s.exec statement = some s') :
    s.db.exec statement = some s'.db ∧ s.allows statement = true ∧
      s'.unique = s.constraintsAfter statement := by
  obtain ⟨db, hdb, h⟩ := Option.bind_eq_some_iff.1 h
  rw [Option.ite_none_right_eq_some] at h
  obtain ⟨ha, h⟩ := h
  cases h
  exact ⟨hdb, ha, rfl⟩

theorem run_cons (s : Constrained) (statement : Statement) (script : List Statement) :
    s.run (statement :: script) = (s.exec statement).bind (·.run script) := rfl

theorem run_append (s : Constrained) (a b : List Statement) :
    s.run (a ++ b) = (s.run a).bind (·.run b) := by
  simp only [run, List.foldlM_append]
  rfl

/-- The constraints only refuse: what runs with them runs without them. -/
theorem run_db {script : List Statement} (h : s.run script = some s') :
    s.db.run script = some s'.db := by
  induction script generalizing s with
  | nil =>
    cases h
    rfl
  | cons statement script ih =>
    rw [run_cons, Option.bind_eq_some_iff] at h
    obtain ⟨s₁, h₁, h₂⟩ := h
    rw [Database.run_cons, (exec_eq_some h₁).1, Option.bind_some]
    exact ih h₂

theorem run_keeps {script : List Statement}
    (hk : ∀ statement ∈ script, ∀ s : Constrained, s.constraintsAfter statement = s.unique)
    (h : s.run script = some s') : s'.unique = s.unique := by
  induction script generalizing s with
  | nil =>
    cases h
    rfl
  | cons statement script ih =>
    rw [run_cons, Option.bind_eq_some_iff] at h
    obtain ⟨s₁, h₁, h₂⟩ := h
    rw [ih (fun t ht => hk t (.tail _ ht)) h₂, (exec_eq_some h₁).2.2]
    exact hk statement List.mem_cons_self s

theorem put_self (unique : String → List String) (table : String) (columns : List String) :
    put unique table columns (lower table) = columns := if_pos rfl

theorem put_ne (unique : String → List String) {a b : String} (h : lower b ≠ lower a)
    (columns : List String) : put unique a columns (lower b) = unique (lower b) := if_neg h

theorem run_renames {renames : List Rename}
    (hr : ∀ r ∈ renames, ∀ r' ∈ renames, lower r.target ≠ lower r'.source)
    (h : s.run (renames.map fun r =>
      .renameColumn (.simple table) (.simple r.source) (.simple r.target)) = some s') :
    s'.constraints table = (s.constraints table).map (Rename.newName renames) := by
  induction renames generalizing s with
  | nil =>
    cases h
    exact (List.map_id _).symm
  | cons r rs ih =>
    rw [List.map_cons, run_cons, Option.bind_eq_some_iff] at h
    obtain ⟨s₁, h₁, h₂⟩ := h
    have hstep : s₁.constraints table = (s.constraints table).map fun name =>
        if sameName r.source name then r.target else name := by
      rw [constraints, (exec_eq_some h₁).2.2]
      simp only [constraintsAfter, text_simple]
      exact put_self _ _ _
    rw [ih (fun a ha b hb => hr a (.tail _ ha) b (.tail _ hb)) h₂, hstep, List.map_map,
      Database.newName_cons fun r' h' => hr r List.mem_cons_self r' (.tail _ h')]

/-- The constraints are the same before and after, so each drop was allowed under them. -/
theorem run_drops {dropped : List LiveColumn}
    (h : s.run (dropped.map fun d => .dropColumn (.simple table) (.simple d.name)) = some s') :
    s'.unique = s.unique ∧
      ∀ d ∈ dropped, ∀ x ∈ s.constraints table, lower x ≠ lower d.name := by
  induction dropped generalizing s with
  | nil =>
    cases h
    exact ⟨rfl, by simp⟩
  | cons d ds ih =>
    rw [List.map_cons, run_cons, Option.bind_eq_some_iff] at h
    obtain ⟨s₁, h₁, h₂⟩ := h
    obtain ⟨_, hallows, hunique⟩ := exec_eq_some h₁
    obtain ⟨hkeep, hds⟩ := ih h₂
    refine ⟨hkeep.trans hunique, fun e he => ?_⟩
    rcases List.mem_cons.1 he with rfl | he
    · simpa [allows, sameName_iff] using hallows
    · intro x hx
      apply hds e he x
      rw [constraints, hunique]
      exact hx

/-- A rebuilt table has the constraints of its new definition. -/
theorem run_rebuild {m : Mapping} {capability : Capability} {renamed : LiveTable}
    {renames : List Rename}
    (h : s.run (m.rebuildStatements capability renamed renames) = some s') :
    s'.constraints m.table = uniqueNames m.definitions := by
  obtain ⟨_, hne, hshadow, _, _⟩ := Database.run_rebuild (run_db h)
  simp only [Mapping.rebuildStatements, run_cons, Option.bind_eq_some_iff] at h
  obtain ⟨s₀, h₀, s₁, h₁, s₂, h₂, s₃, h₃, s₄, h₄, s₅, h₅, h₆⟩ := h
  cases h₆
  have hdb₀ : s₀.db = s.db := (Option.some.inj (exec_eq_some h₀).1).symm
  have hc₁ : s₁.constraints (m.table ++ capability.shadowSuffix) = uniqueNames m.definitions := by
    rw [constraints, (exec_eq_some h₁).2.2]
    simp only [constraintsAfter, text_simple, hdb₀, hshadow, Bool.false_eq_true, if_false]
    exact put_self _ _ _
  have hc₂ : s₂.unique = s₁.unique := (exec_eq_some h₂).2.2
  have hc₃ : s₃.unique = put s₂.unique m.table [] := by
    simpa only [constraintsAfter, text_simple] using (exec_eq_some h₃).2.2
  have hc₄ : s₄.constraints m.table = s₃.constraints (m.table ++ capability.shadowSuffix) := by
    rw [constraints, (exec_eq_some h₄).2.2]
    simp only [constraintsAfter, text_simple]
    exact put_self _ _ _
  have hc₅ : s'.unique = s₄.unique := (exec_eq_some h₅).2.2
  calc s'.constraints m.table
      = s₃.constraints (m.table ++ capability.shadowSuffix) := by rw [constraints, hc₅]; exact hc₄
    _ = s₁.constraints (m.table ++ capability.shadowSuffix) := by
        rw [constraints, hc₃, put_ne _ hne, hc₂]; rfl
    _ = uniqueNames m.definitions := hc₁

end Constrained

end RecordMapper.Engine
