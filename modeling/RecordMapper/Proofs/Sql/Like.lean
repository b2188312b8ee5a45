import Mathlib.Data.List.Infix
import RecordMapper.Expr
import RecordMapper.Proofs.Text.Plain
/-!
Pattern tests as the engine decides them. In a pattern `%` stands for any text and `_` for any one
character; every other character stands for itself, in either case if it is an ASCII letter.
-/

namespace RecordMapper

open Text

namespace Sql

def isWildcard (c : Char) : Bool := c == '%' || c == '_'

theorem isWildcard_toLower (c : Char) : isWildcard c.toLower = isWildcard c :=
  toLower_congr (by decide +kernel) c

def hasWildcard (s : String) : Bool := s.toList.any isWildcard

theorem hasWildcard_eq_false_iff {s : String} :
    hasWildcard s = false ↔ ∀ c ∈ s.toList, isWildcard c = false := by
  simp [hasWildcard]

/-- The text fits the pattern. -/
def matchesPattern : List Char → List Char → Bool
  | [], s => s.isEmpty
  | '%' :: p, s => s.tails.any (matchesPattern p)
  | c :: p, d :: s => (c == '_' || c.toLower == d.toLower) && matchesPattern p s
  | _ :: _, [] => false

def like (pattern s : String) : Bool := matchesPattern pattern.toList s.toList

variable {p s : List Char}

theorem matchesPattern_nil_iff : matchesPattern [] s = true ↔ s = [] := by
  rw [matchesPattern, List.isEmpty_iff]

theorem matchesPattern_any_iff :
    matchesPattern ('%' :: p) s = true ↔ ∃ rest, rest <:+ s ∧ matchesPattern p rest = true := by
  rw [matchesPattern, List.any_eq_true]
  simp only [List.mem_tails]

theorem matchesPattern_cons_iff {c : Char} (hc : c ≠ '%') :
    matchesPattern (c :: p) s = true ↔ ∃ d rest, s = d :: rest ∧
      (c = '_' ∨ c.toLower = d.toLower) ∧ matchesPattern p rest = true := by
  cases s with
  | nil => simp [matchesPattern]
  | cons d rest => simp [matchesPattern]

/-- A wildcard for any text after a pattern leaves the rest of the text free. -/
theorem matchesPattern_append_any_iff :
    matchesPattern (p ++ ['%']) s = true ↔
      ∃ start, start <+: s ∧ matchesPattern p start = true := by
  induction p generalizing s with
  | nil =>
    simp only [List.nil_append, matchesPattern_any_iff, matchesPattern_nil_iff]
    exact ⟨fun _ => ⟨[], List.nil_prefix, rfl⟩, fun _ => ⟨[], List.nil_suffix, rfl⟩⟩
  | cons c p ih =>
    rw [List.cons_append]
    by_cases hc : c = '%'
    · subst hc
      simp only [matchesPattern_any_iff, ih]
      constructor
      · rintro ⟨_, ⟨front, rfl⟩, start, ⟨back, rfl⟩, hp⟩
        refine ⟨front ++ start, ⟨back, List.append_assoc ..⟩, start, ⟨front, rfl⟩, hp⟩
      · rintro ⟨_, ⟨back, rfl⟩, start, ⟨front, rfl⟩, hp⟩
        exact ⟨start ++ back, ⟨front, (List.append_assoc ..).symm⟩, start, ⟨back, rfl⟩, hp⟩
    · simp only [matchesPattern_cons_iff hc, ih]
      constructor
      · rintro ⟨d, rest, rfl, hd, start, hstart, hp⟩
        exact ⟨d :: start, List.cons_prefix_cons.2 ⟨rfl, hstart⟩, d, start, rfl, hd, hp⟩
      · rintro ⟨_, ⟨back, rfl⟩, d, rest, rfl, hd, hp⟩
        exact ⟨d, rest ++ back, rfl, hd, rest, ⟨back, rfl⟩, hp⟩

/-- Every text fits itself as a pattern, whatever the case of its letters. -/
theorem matchesPattern_of_same (h : p.map Char.toLower = s.map Char.toLower) :
    matchesPattern p s = true := by
  induction p generalizing s with
  | nil => exact matchesPattern_nil_iff.2 (List.map_eq_nil_iff.1 h.symm)
  | cons c p ih =>
    cases s with
    | nil => cases h
    | cons d s =>
      obtain ⟨hd, hs⟩ := List.cons.inj h
      by_cases hc : c = '%'
      · subst hc
        exact matchesPattern_any_iff.2 ⟨s, List.suffix_cons d s, ih hs⟩
      · exact (matchesPattern_cons_iff hc).2 ⟨d, s, rfl, .inr hd, ih hs⟩

/-- A pattern without wildcards is fit only by its own text. -/
theorem matchesPattern_iff_same (hp : ∀ c ∈ p, isWildcard c = false) :
    matchesPattern p s = true ↔ p.map Char.toLower = s.map Char.toLower := by
  refine ⟨fun h => ?_, matchesPattern_of_same⟩
  induction p generalizing s with
  | nil => rw [matchesPattern_nil_iff.1 h]
  | cons c p ih =>
    obtain ⟨hc, hp⟩ := List.forall_mem_cons.1 hp
    rw [isWildcard, Bool.or_eq_false_iff, beq_eq_false_iff_ne, beq_eq_false_iff_ne] at hc
    obtain ⟨d, rest, rfl, hd, hrest⟩ := (matchesPattern_cons_iff hc.1).1 h
    rw [List.map_cons, List.map_cons, ih hp hrest, hd.resolve_left hc.2]

/-- A text without wildcards that fits a pattern. -/
def fillIn (p : List Char) : List Char :=
  p.filterMap fun c => if c = '%' then none else some (if c = '_' then 'x' else c)

theorem matchesPattern_fillIn (p : List Char) : matchesPattern p (fillIn p) = true := by
  induction p with
  | nil => rfl
  | cons c p ih =>
    by_cases hc : c = '%'
    · subst hc
      exact matchesPattern_any_iff.2 ⟨fillIn p, List.suffix_refl _, ih⟩
    · rw [fillIn, List.filterMap_cons, if_neg hc]
      refine (matchesPattern_cons_iff hc).2 ⟨_, _, rfl, ?_, ih⟩
      by_cases hu : c = '_'
      · exact .inl hu
      · exact .inr (by rw [if_neg hu])

theorem isWildcard_of_mem_fillIn {c : Char} (h : c ∈ fillIn p) : isWildcard c = false := by
  obtain ⟨d, _, hd⟩ := List.mem_filterMap.1 h
  split at hd
  next => cases hd
  next hd' =>
    cases hd
    split
    next => rfl
    next hu => simp [isWildcard, hd', hu]

end Sql

open Sql

namespace PatternKind

/-- Where a text is looked for. -/
def Within : PatternKind → List Char → List Char → Prop
  | contains, part, s => part <:+: s
  | startsWith, part, s => part <+: s
  | endsWith, part, s => part <:+ s

/-- A text is found in another one, whatever the case of their ASCII letters. -/
def Finds (kind : PatternKind) (text s : String) : Prop :=
  kind.Within (lower text).toList (lower s).toList

variable {kind : PatternKind} {text s : String}

theorem within_map_iff {f : Char → Char} {part whole : List Char} :
    kind.Within part (whole.map f) ↔ ∃ found, kind.Within found whole ∧ part = found.map f := by
  cases kind with
  | contains => exact List.infix_map_iff
  | startsWith => exact List.prefix_map_iff
  | endsWith => exact List.suffix_map_iff

theorem within_self (kind : PatternKind) (whole : List Char) : kind.Within whole whole := by
  cases kind with
  | contains => exact List.infix_refl whole
  | startsWith => exact List.prefix_refl whole
  | endsWith => exact List.suffix_refl whole

theorem Within.subset {part whole : List Char} (h : kind.Within part whole) : part ⊆ whole := by
  cases kind with
  | contains => exact List.IsInfix.subset h
  | startsWith => exact List.IsPrefix.subset h
  | endsWith => exact List.IsSuffix.subset h

theorem finds_iff : kind.Finds text s ↔ ∃ found, kind.Within found s.toList ∧
    text.toList.map Char.toLower = found.map Char.toLower := by
  rw [Finds, toList_lower, toList_lower, within_map_iff]

/-- The wildcards of a kind let its text stand where the kind looks for it. -/
theorem like_wrap_iff : like (kind.wrap text) s = true ↔
    ∃ found, kind.Within found s.toList ∧ matchesPattern text.toList found = true := by
  have hmark : "%".toList = ['%'] := rfl
  cases kind with
  | contains =>
    rw [like, wrap, String.toList_append, String.toList_append, hmark, List.append_assoc,
      List.singleton_append, matchesPattern_any_iff]
    simp only [matchesPattern_append_any_iff]
    constructor
    · rintro ⟨rest, hrest, found, hfound, hp⟩
      exact ⟨found, hfound.isInfix.trans hrest.isInfix, hp⟩
    · rintro ⟨found, hfound, hp⟩
      obtain ⟨rest, hstart, hrest⟩ := List.infix_iff_prefix_suffix.1 hfound
      exact ⟨rest, hrest, found, hstart, hp⟩
  | startsWith =>
    rw [like, wrap, String.toList_append, hmark, matchesPattern_append_any_iff]
    rfl
  | endsWith =>
    rw [like, wrap, String.toList_append, hmark, List.singleton_append, matchesPattern_any_iff]
    rfl

theorem like_of_finds (h : kind.Finds text s) : like (kind.wrap text) s = true := by
  obtain ⟨found, hfound, hsame⟩ := finds_iff.1 h
  exact like_wrap_iff.2 ⟨found, hfound, matchesPattern_of_same hsame⟩

/-- A pattern test is a search for its text when, and only when, the text has no wildcard. -/
theorem forall_like_iff_finds_iff :
    (∀ s, like (kind.wrap text) s = true ↔ kind.Finds text s) ↔ hasWildcard text = false := by
  rw [hasWildcard_eq_false_iff]
  constructor
  · intro h c hc
    let filled := String.ofList (fillIn text.toList)
    have hfilled : filled.toList = fillIn text.toList := String.toList_ofList
    have hlike : like (kind.wrap text) filled = true :=
      like_wrap_iff.2 ⟨fillIn text.toList, hfilled ▸ kind.within_self _, matchesPattern_fillIn _⟩
    obtain ⟨found, hfound, hsame⟩ := finds_iff.1 ((h filled).1 hlike)
    have hlower : c.toLower ∈ found.map Char.toLower := hsame ▸ List.mem_map_of_mem hc
    obtain ⟨d, hd, hcase⟩ := List.mem_map.1 hlower
    rw [← isWildcard_toLower, ← hcase, isWildcard_toLower]
    exact isWildcard_of_mem_fillIn (hfilled ▸ hfound.subset hd)
  · intro h s
    rw [like_wrap_iff, finds_iff]
    simp only [matchesPattern_iff_same h]

end PatternKind

end RecordMapper
