import RecordMapper.Proofs.Traversal
import RecordMapper.Query.Lowering
/-!
The predicates that become filters, one case for each form.
-/

namespace RecordMapper

open Sql (Filter)

/-- The filter that a predicate over the fields of a mapping becomes. -/
inductive Lowers (m : Mapping) : Expr → Filter → Prop
  | conj {l r : Expr} {l' r' : Filter} (hl : Lowers m l l') (hr : Lowers m r r') :
      Lowers m (.conj l r) (.conj l' r')
  | disj {l r : Expr} {l' r' : Filter} (hl : Lowers m l l') (hr : Lowers m r r') :
      Lowers m (.disj l r) (.disj l' r')
  | neg {e : Expr} {f : Filter} (he : Lowers m e f) : Lowers m (.neg e) (.neg f)
  | nullRight {op : Operator} {l r : Expr} {f : Filter}
      (hs : Expr.testedSide? op l r = some .left) (hl : Lowers m l f) :
      Lowers m (.binary op l r) (.nullTest (op == .ne) f)
  | nullLeft {op : Operator} {l r : Expr} {f : Filter}
      (hs : Expr.testedSide? op l r = some .right) (hr : Lowers m r f) :
      Lowers m (.binary op l r) (.nullTest (op == .ne) f)
  | binary {op : Operator} {l r : Expr} {l' r' : Filter} (hs : Expr.testedSide? op l r = none)
      (hop : op ≠ .rem) (hl : Lowers m l l') (hr : Lowers m r r') :
      Lowers m (.binary op l r) (.binary op l' r')
  | cast {e : Expr} {f : Filter} {type : NativeType} (he : Lowers m e f) :
      Lowers m (.cast e type) f
  | field {name column : String} (hc : m.columnName name = .ok column) :
      Lowers m (.field name) (.column column)
  | hasValue {e : Expr} {f : Filter} (he : Lowers m e f) : Lowers m (.hasValue e) (.hasValue f)
  | nullTest {negated : Bool} {e : Expr} {f : Filter} (he : Lowers m e f) :
      Lowers m (.nullTest negated e) (.nullTest negated f)
  | member {e list : Expr} {f : Filter} {items : List Value}
      (hs : list.stripCasts = .constant (.list items)) (hi : items ≠ []) (he : Lowers m e f) :
      Lowers m (.member e list) (.member f items)
  | pattern {kind : PatternKind} {e text : Expr} {name column s : String} {v : Value}
      (hs : e.stripCasts = .field name) (ht : text.stripCasts = .constant v)
      (hv : v.patternText? = some s) (hc : m.columnName name = .ok column) :
      Lowers m (.pattern kind e text) (.like column (kind.wrap s))
  | null : Lowers m (.constant .null) .null
  | bound {v : Value} (hn : v.isNull = false) (hl : v.isList = false) :
      Lowers m (.constant v) (.bound v)

/-! ### The side that a null test leaves out -/

theorem Expr.stripCasts_of_isNullConstant {e : Expr} (h : e.stripCasts.isNullConstant = true) :
    e.stripCasts = .constant .null := by
  cases he : e.stripCasts with
  | constant v =>
    cases v with
    | null => rfl
    | _ => simp [he, isNullConstant] at h
  | _ => simp [he, isNullConstant] at h

/-- The side that a null test leaves out is the null constant. -/
theorem Expr.testedSide?_spec {op : Operator} {l r : Expr} {side : NullSide}
    (h : testedSide? op l r = some side) : op ≠ .rem ∧
      match side with
      | .left => r.stripCasts = .constant .null
      | .right => l.stripCasts = .constant .null := by
  rw [testedSide?] at h
  split at h
  next hop =>
    have hrem : op ≠ .rem := by rcases hop with rfl | rfl <;> decide
    split at h
    next _ hr =>
      cases h
      exact ⟨hrem, stripCasts_of_isNullConstant hr⟩
    next hl _ =>
      cases h
      exact ⟨hrem, stripCasts_of_isNullConstant hl⟩
    next => cases h
  next => cases h

/-! ### A filter for each form -/

theorem stripCasts_of_memberItems {list : Expr} {items : List Value}
    (h : list.memberItems = .ok items) :
    list.stripCasts = .constant (.list items) ∧ items ≠ [] := by
  rw [Expr.memberItems] at h
  split at h
  next => cases h
  next items hne hs =>
    cases h
    exact ⟨hs, fun he => hne he⟩
  next => cases h

theorem stripCasts_of_patternText {kind : PatternKind} {text : Expr} {s : String}
    (h : text.patternText kind = .ok s) :
    ∃ v t, text.stripCasts = .constant v ∧ v.patternText? = some t ∧ s = kind.wrap t := by
  rw [Expr.patternText] at h
  split at h
  next v hs =>
    split at h
    next t hv =>
      cases h
      exact ⟨v, t, hs, hv, rfl⟩
    next => cases h
  next => cases h

theorem lowers_of_toFilter {m : Mapping} {e : Expr} {f : Filter} (h : e.toFilter m = .ok f) :
    Lowers m e f := by
  fun_induction Expr.toFilter m e generalizing f with
  | case1 l r ihl ihr =>
    obtain ⟨l', hl, h⟩ := bind_eq_ok_iff.1 h
    obtain ⟨r', hr, rfl⟩ := bind_pure_eq_ok_iff.1 h
    exact .conj (ihl hl) (ihr hr)
  | case2 l r ihl ihr =>
    obtain ⟨l', hl, h⟩ := bind_eq_ok_iff.1 h
    obtain ⟨r', hr, rfl⟩ := bind_pure_eq_ok_iff.1 h
    exact .disj (ihl hl) (ihr hr)
  | case3 e ih =>
    obtain ⟨e', he, rfl⟩ := bind_pure_eq_ok_iff.1 h
    exact .neg (ih he)
  | case4 op l r hs ih =>
    obtain ⟨l', hl, rfl⟩ := bind_pure_eq_ok_iff.1 h
    exact .nullRight hs (ih hl)
  | case5 op l r hs ih =>
    obtain ⟨r', hr, rfl⟩ := bind_pure_eq_ok_iff.1 h
    exact .nullLeft hs (ih hr)
  | case7 op l r hs hop ihl ihr =>
    obtain ⟨l', hl, h⟩ := bind_eq_ok_iff.1 h
    obtain ⟨r', hr, rfl⟩ := bind_pure_eq_ok_iff.1 h
    exact .binary hs hop (ihl hl) (ihr hr)
  | case8 e type ih => exact .cast (ih h)
  | case9 name =>
    obtain ⟨column, hc, rfl⟩ := bind_pure_eq_ok_iff.1 h
    exact .field hc
  | case10 e ih =>
    obtain ⟨e', he, rfl⟩ := bind_pure_eq_ok_iff.1 h
    exact .hasValue (ih he)
  | case11 negated e ih =>
    obtain ⟨e', he, rfl⟩ := bind_pure_eq_ok_iff.1 h
    exact .nullTest (ih he)
  | case12 e list ih =>
    obtain ⟨items, hi, h⟩ := bind_eq_ok_iff.1 h
    obtain ⟨e', he, rfl⟩ := bind_pure_eq_ok_iff.1 h
    obtain ⟨hs, hne⟩ := stripCasts_of_memberItems hi
    exact .member hs hne (ih he)
  | case13 kind e text name hs =>
    obtain ⟨s, ht, h⟩ := bind_eq_ok_iff.1 h
    obtain ⟨column, hc, rfl⟩ := bind_pure_eq_ok_iff.1 h
    obtain ⟨v, t, hconst, hv, rfl⟩ := stripCasts_of_patternText ht
    exact .pattern hs hconst hv hc
  | case15 v =>
    cases v with
    | null =>
      cases h
      exact .null
    | bool | i64 | u64 | f32 | f64 | text | bytes | timestamp | vector =>
      cases h
      exact .bound rfl rfl
    | list => cases h
  | case6 | case14 | case16 | case17 | case18 => cases h

theorem toFilter_of_lowers {m : Mapping} {e : Expr} {f : Filter} (h : Lowers m e f) :
    e.toFilter m = .ok f := by
  induction h with
  | conj _ _ ihl ihr | disj _ _ ihl ihr =>
    rw [Expr.toFilter, ihl, ihr]
    rfl
  | neg _ ih | hasValue _ ih | nullTest _ ih =>
    rw [Expr.toFilter, ih]
    rfl
  | nullRight hs _ ih | nullLeft hs _ ih =>
    simp only [Expr.toFilter, hs, ih]
    rfl
  | binary hs hop _ _ ihl ihr =>
    simp only [Expr.toFilter, hs, if_neg hop, ihl, ihr]
    rfl
  | cast _ ih => exact ih
  | field hc =>
    rw [Expr.toFilter, hc]
    rfl
  | @member e list f items hs hi _ ih =>
    have hitems : list.memberItems = .ok items := by
      rw [Expr.memberItems, hs]
      cases items with
      | nil => exact absurd rfl hi
      | cons => rfl
    rw [Expr.toFilter, hitems, ih]
    rfl
  | @pattern kind e text name column s v hs ht hv hc =>
    have htext : text.patternText kind = .ok (kind.wrap s) := by
      simp only [Expr.patternText, ht, hv]
    simp only [Expr.toFilter, hs, htext, hc]
    rfl
  | null => rfl
  | @bound v hn hl =>
    cases v with
    | null => cases hn
    | list => cases hl
    | _ => rfl

end RecordMapper
