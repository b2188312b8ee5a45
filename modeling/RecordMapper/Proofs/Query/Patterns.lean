import RecordMapper.Proofs.Number.Spelling
import RecordMapper.Proofs.Query.Scope
import RecordMapper.Proofs.Sql.Like
/-!
Pattern tests as searches: the text of a constant is looked for in the stored ones.
-/

namespace RecordMapper

open Sql

theorem hasWildcard_of_spelled {s : String} (h : Spelled s.toList) : hasWildcard s = false := by
  rw [hasWildcard_eq_false_iff]
  intro c hc
  rw [isWildcard, Bool.or_eq_false_iff, beq_eq_false_iff_ne, beq_eq_false_iff_ne]
  constructor
  · rintro rfl
    exact h.not_mem (by decide) hc
  · rintro rfl
    exact h.not_mem (by decide) hc

/-- Of the constants that can be patterns only texts can have wildcards. -/
theorem Value.hasWildcard_patternText {v : Value} {t : String} (h : v.patternText? = some t) :
    hasWildcard t = false ↔ ∀ s, v = .text s → hasWildcard s = false := by
  cases v with
  | text s =>
    cases h
    simp
  | bool b =>
    cases h
    refine iff_of_true ?_ nofun
    cases b <;> decide
  | i64 n | u64 n =>
    cases h
    exact iff_of_true (hasWildcard_of_spelled (Numeral.spelled_ofInt n.val)) nofun
  | f32 x =>
    cases h
    exact iff_of_true (hasWildcard_of_spelled (x.datum.spelled_plainText .single)) nofun
  | f64 x =>
    cases h
    exact iff_of_true (hasWildcard_of_spelled (x.datum.spelled_plainText .double)) nofun
  | timestamp t =>
    cases h
    exact iff_of_true (hasWildcard_of_spelled t.spelled_text) nofun
  | bytes | list | null | vector => cases h

/-- A pattern test finds every stored text in which the text of its constant is found. It finds no
other one just when the constant is not a text with a wildcard in it. -/
theorem Expr.pattern_finds_iff {m : Mapping} {kind : PatternKind} {e text : Expr} {f : Filter}
    (h : (Expr.pattern kind e text).toFilter m = .ok f) :
    ∃ column v t, text.stripCasts = .constant v ∧ v.patternText? = some t ∧
      f = .like column (kind.wrap t) ∧ paramsOf f.fragments = [.text (kind.wrap t)] ∧
      (∀ s, kind.Finds t s → like (kind.wrap t) s = true) ∧
      ((∀ s, like (kind.wrap t) s = true ↔ kind.Finds t s) ↔
        ∀ s, v = .text s → hasWildcard s = false) := by
  cases lowers_of_toFilter h with
  | @pattern _ _ _ _ column t v _ hv ht _ =>
    refine ⟨column, v, t, hv, ht, rfl, rfl, fun s => PatternKind.like_of_finds, ?_⟩
    rw [PatternKind.forall_like_iff_finds_iff, Value.hasWildcard_patternText ht]

/-- Authors with `ann` in their names. -/
theorem pattern_finds_ann : ∃ f,
    (Expr.pattern .contains (.field "name") (.constant (.text "ann"))).toFilter authors.assemble =
      .ok f ∧ paramsOf f.fragments = [.text "%ann%"] ∧
      ∀ s, like "%ann%" s = true ↔ PatternKind.contains.Finds "ann" s := by
  obtain ⟨f, h⟩ : ∃ f, (Expr.pattern .contains (.field "name")
    (.constant (.text "ann"))).toFilter authors.assemble = .ok f := ⟨_, rfl⟩
  obtain ⟨column, v, t, hv, ht, hf, hparams, _, hiff⟩ := Expr.pattern_finds_iff h
  cases hv
  cases ht
  refine ⟨f, h, hparams, hiff.2 ?_⟩
  rintro _ ⟨⟩
  rfl

/-- A search for `50%` finds texts that only begin with `50`. -/
theorem percent_passes_for_wildcard : ∃ f,
    (Expr.pattern .contains (.field "name") (.constant (.text "50%"))).toFilter authors.assemble =
      .ok f ∧ paramsOf f.fragments = [.text "%50%%"] ∧
      like "%50%%" "500 grams" = true ∧ ¬PatternKind.contains.Finds "50%" "500 grams" := by
  refine ⟨_, rfl, rfl, by decide, ?_⟩
  intro h
  have hmark : '%' ∈ (Text.lower "500 grams").toList := h.subset (by decide)
  revert hmark
  decide

end RecordMapper
