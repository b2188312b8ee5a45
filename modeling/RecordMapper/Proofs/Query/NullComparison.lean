import RecordMapper.Proofs.Query.Grammar
import RecordMapper.Proofs.Query.Grouping
import RecordMapper.Proofs.Sql.Truth
/-!
Comparisons with the null constant, anywhere in a predicate. They become null tests, which are never
unknown, unless both sides are the null constant.
-/

namespace RecordMapper

open Sql

namespace Expr

/-- What an expression is made of. -/
def operands : Expr → List Expr
  | conj l r | disj l r | binary _ l r => [l, r]
  | neg e | cast e _ | hasValue e | nullTest _ e => [e]
  | member e list => [e, list]
  | pattern _ e text => [e, text]
  | call _ args => args
  | record fields => fields.map Prod.snd
  | vectorDistance e vector => [e, vector]
  | field _ | constant _ => []

/-- `part` is the expression or somewhere in it. -/
inductive Within (part : Expr) : Expr → Prop
  | refl : Within part part
  | operand {e o : Expr} (ho : o ∈ e.operands) (h : Within part o) : Within part e

/-- The operand that is compared with the null constant. -/
def compared (l r : Expr) : Expr := if l.stripCasts.isNullConstant then r else l

variable {m : Mapping} {e l r : Expr} {f : Filter} {op : Operator}

theorem stripCasts_of_not_cast (h : e.isCast = false) : e.stripCasts = e := by
  cases e with
  | cast => cases h
  | _ => rfl

/-- In a field or a constant under casts there is nothing else. -/
theorem Within.stripCasts {part : Expr} (h : Within part e) (he : e.stripCasts.operands = []) :
    part.stripCasts = e.stripCasts := by
  induction h with
  | refl => rfl
  | @operand e o ho _ ih =>
    cases hc : e.isCast with
    | false =>
      rw [stripCasts_of_not_cast hc] at he
      rw [he] at ho
      cases ho
    | true =>
      cases e with
      | cast e type =>
        cases List.mem_singleton.1 ho
        exact ih he
      | _ => cases hc

theorem operands_of_null (h : e.stripCasts = .constant .null) : e.stripCasts.operands = [] := by
  rw [h, operands]

theorem infix_pair (a b : List Token) (t : Token) :
    a <:+: .opening :: a ++ t :: b ++ [.closing] ∧ b <:+: .opening :: a ++ t :: b ++ [.closing] :=
  ⟨⟨[.opening], t :: b ++ [.closing], by simp⟩, ⟨.opening :: a ++ [t], [.closing], by simp⟩⟩

theorem infix_nullTest (f : Filter) (negated : Bool) :
    f.tokens <:+: (Filter.nullTest negated f).tokens :=
  ⟨[.opening], [if negated then .isNotNull else .isNull, .closing], by simp [Filter.tokens]⟩

theorem infix_member (f : Filter) (items : List Value) :
    f.tokens <:+: (Filter.member f items).tokens := by
  rw [Filter.tokens, List.append_assoc]
  exact (List.prefix_append f.tokens _).isInfix

/-- An operand of a predicate is a predicate, whose text is part of the whole text, unless it is a
field or a constant under casts. -/
theorem operand_of_toFilter {o : Expr} (h : e.toFilter m = .ok f) (ho : o ∈ e.operands) :
    (∃ g, o.toFilter m = .ok g ∧ g.tokens <:+: f.tokens) ∨ o.stripCasts.operands = [] := by
  have hpair {a b : Expr} {x y : Filter} {t : Token} (ha : Lowers m a x) (hb : Lowers m b y)
      (hf : f.tokens = .opening :: x.tokens ++ t :: y.tokens ++ [.closing]) (hab : o ∈ [a, b]) :
      ∃ g, o.toFilter m = .ok g ∧ g.tokens <:+: f.tokens := by
    obtain ⟨hx, hy⟩ := infix_pair x.tokens y.tokens t
    rcases List.mem_pair.1 hab with rfl | rfl
    · exact ⟨x, toFilter_of_lowers ha, hf ▸ hx⟩
    · exact ⟨y, toFilter_of_lowers hb, hf ▸ hy⟩
  have hsingle {a : Expr} {x : Filter} (ha : Lowers m a x) (hx : x.tokens <:+: f.tokens)
      (hao : o ∈ [a]) : ∃ g, o.toFilter m = .ok g ∧ g.tokens <:+: f.tokens :=
    ⟨x, toFilter_of_lowers (List.mem_singleton.1 hao ▸ ha), hx⟩
  cases lowers_of_toFilter h with
  | conj hl hr => exact .inl (hpair hl hr rfl ho)
  | disj hl hr => exact .inl (hpair hl hr rfl ho)
  | binary hs hop hl hr => exact .inl (hpair hl hr rfl ho)
  | neg he => exact .inl (hsingle he ⟨[.neg, .opening], [.closing], by simp [Filter.tokens]⟩ ho)
  | cast he => exact .inl (hsingle he List.infix_rfl ho)
  | hasValue he => exact .inl (hsingle he ⟨[], [.isNotNull], rfl⟩ ho)
  | nullTest he => exact .inl (hsingle he (infix_nullTest _ _) ho)
  | nullRight hs hl =>
    rcases List.mem_pair.1 ho with rfl | rfl
    · exact .inl ⟨_, toFilter_of_lowers hl, infix_nullTest _ _⟩
    · exact .inr (operands_of_null (testedSide?_spec hs).2)
  | nullLeft hs hr =>
    rcases List.mem_pair.1 ho with rfl | rfl
    · exact .inr (operands_of_null (testedSide?_spec hs).2)
    · exact .inl ⟨_, toFilter_of_lowers hr, infix_nullTest _ _⟩
  | member hs hi he =>
    rcases List.mem_pair.1 ho with rfl | rfl
    · exact .inl ⟨_, toFilter_of_lowers he, infix_member _ _⟩
    · exact .inr (by rw [hs]; rfl)
  | pattern hs ht hv hc =>
    rcases List.mem_pair.1 ho with rfl | rfl
    · exact .inr (by rw [hs]; rfl)
    · exact .inr (by rw [ht]; rfl)
  | field hc => cases ho
  | null => cases ho
  | bound hn hl => cases ho

/-- A part of a predicate that is made of operands is a predicate, and its text part of the text. -/
theorem Within.exists_filter {part : Expr} (hp : Within part e) (h : e.toFilter m = .ok f)
    (hparts : part.stripCasts.operands ≠ []) :
    ∃ g, part.toFilter m = .ok g ∧ g.tokens <:+: f.tokens := by
  induction hp generalizing f with
  | refl => exact ⟨f, h, List.infix_rfl⟩
  | @operand e o ho hpart ih =>
    rcases operand_of_toFilter h ho with ⟨g, hg, hinfix⟩ | hleaf
    · obtain ⟨g', hg', hinfix'⟩ := ih hg
      exact ⟨g', hg', hinfix'.trans hinfix⟩
    · rw [hpart.stripCasts hleaf] at hparts
      exact absurd hleaf hparts

theorem toFilter_stripCasts (m : Mapping) (e : Expr) : e.stripCasts.toFilter m = e.toFilter m :=
  apply_stripCasts (fun _ _ => by rw [toFilter]) e

theorem toFilter_of_isNullConstant (h : e.stripCasts.isNullConstant = true) :
    e.toFilter m = .ok .null := by
  rw [← toFilter_stripCasts, stripCasts_of_isNullConstant h]
  rfl

/-- A comparison with the null constant on one side is a null test of the other side. -/
theorem toFilter_nullComparison (hop : op = .eq ∨ op = .ne)
    (h : l.stripCasts.isNullConstant ≠ r.stripCasts.isNullConstant) :
    (binary op l r).toFilter m =
      do return .nullTest (op == .ne) (← (compared l r).toFilter m) := by
  cases hl : l.stripCasts.isNullConstant with
  | true =>
    have hr : r.stripCasts.isNullConstant = false := by simpa [hl] using h
    have hside : testedSide? op l r = some .right := by
      rw [testedSide?, if_pos hop, hl, hr]
    simp only [toFilter, hside, compared, hl, if_true]
  | false =>
    have hr : r.stripCasts.isNullConstant = true := by simpa [hl] using h
    have hside : testedSide? op l r = some .left := by
      rw [testedSide?, if_pos hop, hl, hr]
    simp only [toFilter, hside, compared, hl, Bool.false_eq_true, if_false]

/-- Null constants on both sides are compared with each other. -/
theorem toFilter_nullConstants (hop : op = .eq ∨ op = .ne)
    (hl : l.stripCasts.isNullConstant = true) (hr : r.stripCasts.isNullConstant = true) :
    (binary op l r).toFilter m = .ok (.binary op .null .null) := by
  have hside : testedSide? op l r = none := by
    rw [testedSide?, if_pos hop, hl, hr]
  have hrem : op ≠ .rem := by
    rcases hop with rfl | rfl <;> decide
  simp only [toFilter, hside, if_neg hrem, toFilter_of_isNullConstant hl,
    toFilter_of_isNullConstant hr]
  rfl

/-- A comparison with the null constant, wherever it stands in a predicate, is read as one operand.
It is never unknown exactly when only one side is the null constant. It says that the other side is
null, or is not, exactly when in addition the text of that side does not start with a negation. -/
theorem nullComparison_iff (he : e.toFilter m = .ok f) (hp : Within (.binary op l r) e)
    (hop : op = .eq ∨ op = .ne)
    (hn : l.stripCasts.isNullConstant = true ∨ r.stripCasts.isNullConstant = true) :
    ∃ g x t u, (binary op l r).toFilter m = .ok g ∧ g.tokens <:+: f.tokens ∧
      ReadAs g.tokens t ∧ (compared l r).toFilter m = .ok x ∧ readTokens x.tokens = some u ∧
      (x.Grouped → u = (compared l r).tree m) ∧
      ∀ (S : Scalars) (row : String → Option S.Carrier),
        (t.truth S row ≠ none ↔
          ¬(l.stripCasts.isNullConstant = true ∧ r.stripCasts.isNullConstant = true)) ∧
        (t.truth S row = some ((op == .ne) != (u.eval S row).isNone) ↔
          ¬(l.stripCasts.isNullConstant = true ∧ r.stripCasts.isNullConstant = true) ∧
            x.startsNegated = false) := by
  obtain ⟨g, hg, hinfix⟩ := hp.exists_filter he (List.cons_ne_nil l [r])
  by_cases hboth : l.stripCasts.isNullConstant = true ∧ r.stripCasts.isNullConstant = true
  · obtain ⟨hl, hr⟩ := hboth
    rw [toFilter_nullConstants hop hl hr] at hg
    cases hg
    have hx : (compared l r).toFilter m = .ok .null := by
      rw [compared, if_pos hl]
      exact toFilter_of_isNullConstant hr
    have hread : ReadAs (Filter.binary op .null .null).tokens (.binary (.op op) .null .null) :=
      Filter.run_tokens (f := .binary op .null .null) ⟨trivial, trivial⟩
    refine ⟨_, .null, _, .null, toFilter_nullConstants hop hl hr, hinfix, hread, hx, rfl,
      fun _ => (tree_of_lowers (lowers_of_toFilter hx)).1, fun S row => ?_⟩
    rw [Tree.truth_operation_null]
    simp [hl, hr]
  · have hone : l.stripCasts.isNullConstant ≠ r.stripCasts.isNullConstant := by
      intro heq
      rw [heq, or_self] at hn
      exact hboth ⟨heq.trans hn, hn⟩
    have hnode := hg
    rw [toFilter_nullComparison hop hone] at hg
    obtain ⟨x, hx, rfl⟩ := bind_pure_eq_ok_iff.1 hg
    obtain ⟨htree, hitems⟩ := tree_of_lowers (lowers_of_toFilter hx)
    refine ⟨_, x, _, _, hnode, hinfix, x.readAs_nullTest hitems _, hx,
      Filter.readTokens_tokens hitems, fun hgrouped => ?_, fun S row => ?_⟩
    · rw [x.complete_scan_iff.2 hgrouped, htree]
    · rw [Filter.truth_nullTest]
      cases x.startsNegated <;> simp [hboth]

end Expr

/-- A comparison with a null constant under a cast, within a negation, says that the other side is
null. -/
theorem nullComparison_accounts :
    let missing : Expr := .binary .eq (.cast (.constant .null) .string) (.field "email")
    let e : Expr := .neg (.conj (.field "active") missing)
    ∃ f g t, e.toFilter accounts.assemble = .ok f ∧ missing.toFilter accounts.assemble = .ok g ∧
      g.tokens <:+: f.tokens ∧ ReadAs g.tokens t ∧
      ∀ (S : Scalars) (row : String → Option S.Carrier),
        t.truth S row = some (row "email").isNone := by
  intro missing e
  obtain ⟨f, he⟩ : ∃ f, e.toFilter accounts.assemble = .ok f := ⟨_, rfl⟩
  have hp : Expr.Within missing e :=
    .operand (List.mem_singleton_self _) (.operand (.tail _ (.head _)) .refl)
  obtain ⟨g, x, t, u, hg, hinfix, hread, hx, hu, _, htruth⟩ :=
    Expr.nullComparison_iff he hp (.inl rfl) (.inl rfl)
  cases hx
  cases hu
  refine ⟨f, g, t, he, hg, hinfix, hread, fun S row => ?_⟩
  have h := (htruth S row).2.2 ⟨fun hboth => (by cases hboth.2), rfl⟩
  exact h.trans (congrArg some (Bool.false_bne _))

/-- The null constant equals itself in no row, and a negation that is compared with it is taken for
null although it never is. -/
theorem null_equals_null_nowhere :
    let same : Expr := .binary .eq (.constant .null) (.constant .null)
    let absent : Expr := .neg (.hasValue (.field "email"))
    ∃ m f g t u, accounts.build = .ok m ∧ same.toFilter m = .ok f ∧ readTokens f.tokens = some t ∧
      (Expr.binary .eq absent (.constant .null)).toFilter m = .ok g ∧
      readTokens g.tokens = some u ∧
      ∀ (S : Scalars) (row : String → Option S.Carrier),
        t.truth S row = none ∧ u.truth S row = some true ∧ (absent.tree m).truth S row ≠ none := by
  intro same absent
  refine ⟨_, _, _, .binary (.op .eq) .null .null,
    .neg (.binary (.is false) (.binary (.is true) (.name "email") .null) .null),
    rfl, rfl, rfl, rfl, rfl, fun S row => ⟨Tree.truth_operation_null _ _, ?_, ?_⟩⟩
  · rw [Tree.truth_neg, Tree.truth_nullTest]
    rfl
  · have htree : absent.tree accounts.assemble =
        .neg (.binary (.is true) (.name "email") .null) := rfl
    rw [htree, Tree.truth_neg, Tree.truth_nullTest]
    exact fun h => by cases h

end RecordMapper
