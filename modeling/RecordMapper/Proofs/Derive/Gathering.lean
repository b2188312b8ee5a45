import Mathlib.Data.List.Forall2
import Mathlib.Data.List.Perm.Basic
import RecordMapper.Derive.Spec
/-!
Lists whose elements each give something that is merged into a state, one after the other. Where
what is given can be merged in any order, the order of the list does not matter.
-/

namespace RecordMapper.Derive

section OneOf

variable {α : Type} {empty x y z : α}

/-- What two are together of which one at most is not empty. -/
inductive OneOf (empty : α) : α → α → α → Prop
  | left (x : α) : OneOf empty x empty x
  | right (y : α) : OneOf empty empty y y

theorem oneOf_empty_iff : OneOf empty x empty z ↔ x = z := by
  constructor
  · rintro (_ | _)
    · rfl
    · rfl
  · rintro rfl
    exact .left _

theorem oneOf_iff_of_ne (hy : y ≠ empty) : OneOf empty x y z ↔ x = empty ∧ y = z := by
  constructor
  · rintro (_ | _)
    · exact absurd rfl hy
    · exact ⟨rfl, rfl⟩
  · rintro ⟨rfl, rfl⟩
    exact .right _

@[simp, grind =]
theorem oneOf_none_iff {x z : Option α} : OneOf none x none z ↔ x = z := oneOf_empty_iff

@[simp, grind =]
theorem oneOf_some_iff {x z : Option α} : OneOf none x (some y) z ↔ x = none ∧ some y = z :=
  oneOf_iff_of_ne (Option.some_ne_none y)

@[simp, grind =]
theorem oneOf_false_iff {x z : Bool} : OneOf false x false z ↔ x = z := oneOf_empty_iff

@[simp, grind =]
theorem oneOf_true_iff {x z : Bool} : OneOf false x true z ↔ x = false ∧ true = z :=
  oneOf_iff_of_ne (Ne.symm Bool.false_ne_true)

end OneOf

variable {α σ : Type} {gives : α → σ → Prop} {merges : σ → σ → σ → Prop}

/-- What `l` gives, merged into `s`, comes to `t`. -/
inductive Gathers (gives : α → σ → Prop) (merges : σ → σ → σ → Prop) : σ → List α → σ → Prop
  | nil (s : σ) : Gathers gives merges s [] s
  | cons {s d u t : σ} {a : α} {l : List α} (ha : gives a d) (hd : merges s d u)
      (hl : Gathers gives merges u l t) : Gathers gives merges s (a :: l) t

/-- Whatever two are merged, they can be merged the other way round. -/
def Swaps (merges : σ → σ → σ → Prop) : Prop :=
  ∀ {s d e u t : σ}, merges s d u → merges u e t → ∃ v, merges s e v ∧ merges v d t

/-- What `a` and `b` give can be merged the other way round. -/
def Independent (gives : α → σ → Prop) (merges : σ → σ → σ → Prop) (a b : α) : Prop :=
  ∀ {s d e u t : σ}, gives a d → gives b e → merges s d u → merges u e t →
    ∃ v, merges s e v ∧ merges v d t

theorem OneOf.swaps (empty : σ) : Swaps (OneOf empty) := by
  intro x y z u t h h'
  cases h with
  | left => exact ⟨t, h', .left t⟩
  | right =>
    cases h' with
    | left => exact ⟨empty, .left empty, .right y⟩
    | right => exact ⟨z, .right z, .left z⟩

namespace Gathers

variable {s t : σ} {a : α} {l l' before : List α}

/-- An element goes to the front when nothing that it passes depends on it. -/
theorem move (hbefore : ∀ b ∈ before, Independent gives merges b a)
    (h : Gathers gives merges s (before ++ a :: l) t) :
    Gathers gives merges s (a :: (before ++ l)) t := by
  induction before generalizing s with
  | nil => exact h
  | cons b before ih =>
    obtain ⟨hb, hbefore⟩ := List.forall_mem_cons.1 hbefore
    cases h with
    | cons hd hs h =>
      cases ih hbefore h with
      | cons he hu hl =>
        obtain ⟨_, hs', hu'⟩ := hb hd he hs hu
        exact .cons he hs' (.cons hd hu' hl)

/-- The order does not matter, as long as those that may depend on one another keep theirs. -/
theorem perm_filter {p : α → Bool}
    (hp : ∀ a b, p a = false ∨ p b = false → Independent gives merges a b)
    (hperm : l.Perm l') (hfilter : l.filter p = l'.filter p)
    (h : Gathers gives merges s l t) : Gathers gives merges s l' t := by
  induction l' generalizing l s with
  | nil => rwa [hperm.eq_nil] at h
  | cons a l' ih =>
    -- `a` stands behind none that it may depend on
    obtain ⟨before, after, rfl, hbefore⟩ : ∃ before after, l = before ++ a :: after ∧
        ∀ b ∈ before, p b = false ∨ p a = false := by
      cases ha : p a with
      | true =>
        rw [List.filter_cons_of_pos ha, List.filter_eq_cons_iff] at hfilter
        obtain ⟨before, after, hl, hbefore, _, _⟩ := hfilter
        exact ⟨before, after, hl, fun b hb => .inl (Bool.eq_false_iff.2 (hbefore b hb))⟩
      | false =>
        obtain ⟨before, after, hl⟩ := List.append_of_mem (hperm.mem_iff.2 List.mem_cons_self)
        exact ⟨before, after, hl, fun _ _ => .inr rfl⟩
    have hrest : (before ++ after).filter p = l'.filter p := by
      rw [List.filter_append, List.filter_cons, List.filter_cons] at hfilter
      rw [List.filter_append]
      cases ha : p a with
      | true =>
        have hnil : before.filter p = [] := by
          rw [List.filter_eq_nil_iff]
          intro b hb
          simpa [ha] using hbefore b hb
        simpa [ha, hnil] using hfilter
      | false => simpa [ha] using hfilter
    cases move (fun b hb => hp b a (hbefore b hb)) h with
    | cons hd hs h =>
      exact .cons hd hs (ih (List.perm_middle.symm.trans hperm).cons_inv hrest h)

theorem perm (hswap : Swaps merges) (hperm : l.Perm l') (h : Gathers gives merges s l t) :
    Gathers gives merges s l' t := by
  refine h.perm_filter (p := fun _ => false) (fun _ _ _ _ _ _ _ _ _ _ => hswap) hperm ?_
  rw [List.filter_false, List.filter_false]

end Gathers

theorem gathers_map {β : Type} {f : β → α} {l : List β} {s t : σ} :
    Gathers gives merges s (l.map f) t ↔ Gathers (fun b d => gives (f b) d) merges s l t := by
  induction l generalizing s with
  | nil =>
    constructor
    all_goals
      rintro ⟨⟩
      exact .nil _
  | cons b l ih =>
    constructor
    · rintro (_ | ⟨hb, hd, hl⟩)
      exact .cons hb hd (ih.1 hl)
    · rintro (_ | ⟨hb, hd, hl⟩)
      exact .cons hb hd (ih.2 hl)

/-- Elements that give the same can stand for one another. -/
theorem gathers_congr {R : α → α → Prop} (hR : ∀ a a' d, R a a' → (gives a d ↔ gives a' d))
    {l l' : List α} (h : List.Forall₂ R l l') {s t : σ} :
    Gathers gives merges s l t ↔ Gathers gives merges s l' t := by
  induction h generalizing s with
  | nil => rfl
  | cons ha _ ih =>
    constructor
    · rintro (_ | ⟨hd, hs, hl⟩)
      exact .cons ((hR _ _ _ ha).1 hd) hs (ih.1 hl)
    · rintro (_ | ⟨hd, hs, hl⟩)
      exact .cons ((hR _ _ _ ha).2 hd) hs (ih.2 hl)

/-- Steps that merge what each element gives refuse none of them when all can be gathered. -/
theorem gather_eq_iff {ε : Type} {step : σ → α → Except ε σ}
    (hstep : ∀ s a u, step s a = .ok u ↔ ∃ d, gives a d ∧ merges s d u) {l : List α} {s t : σ} :
    gather step s l = (t, []) ↔ Gathers gives merges s l t := by
  induction l generalizing s with
  | nil =>
    constructor
    · rintro ⟨⟩
      exact .nil _
    · rintro ⟨⟩
      rfl
  | cons a l ih =>
    rw [gather]
    constructor
    · intro h
      split at h
      next hok =>
        obtain ⟨_, hd, hs⟩ := (hstep _ _ _).1 hok
        exact .cons hd hs (ih.1 h)
      next => cases h
    · rintro (_ | ⟨hd, hs, hl⟩)
      rw [(hstep _ _ _).2 ⟨_, hd, hs⟩]
      exact ih.2 hl

end RecordMapper.Derive
