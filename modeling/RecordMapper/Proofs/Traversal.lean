import Mathlib.Data.List.Forall2
/-!
Steps that can fail, one after the other and along a list.
-/

namespace RecordMapper

variable {α β γ δ ε : Type}

theorem bind_eq_ok_iff {x : Except ε α} {f : α → Except ε β} {b : β} :
    (x >>= f) = .ok b ↔ ∃ a, x = .ok a ∧ f a = .ok b := by
  cases x with
  | error e =>
    constructor
    · intro h
      cases h
    · rintro ⟨_, h, _⟩
      cases h
  | ok a =>
    constructor
    · exact fun h => ⟨a, rfl, h⟩
    · rintro ⟨_, h, hb⟩
      cases h
      exact hb

theorem pure_eq_ok_iff {a b : α} : (pure a : Except ε α) = .ok b ↔ a = b :=
  ⟨Except.ok.inj, congrArg Except.ok⟩

theorem bind_pure_eq_ok_iff {x : Except ε α} {f : α → β} {b : β} :
    (x >>= fun a => pure (f a)) = .ok b ↔ ∃ a, x = .ok a ∧ f a = b := by
  rw [bind_eq_ok_iff]
  simp only [pure_eq_ok_iff]

theorem map_eq_ok_iff {x : Except ε α} {f : α → β} {b : β} :
    x.map f = .ok b ↔ ∃ a, x = .ok a ∧ f a = b := by
  cases x <;> simp [Except.map]

theorem mapError_eq_ok_iff {x : Except ε α} {f : ε → δ} {a : α} :
    x.mapError f = .ok a ↔ x = .ok a := by
  cases x <;> simp [Except.mapError]

theorem ite_error_eq_ok_iff {b : Bool} {e : ε} {x : Except ε α} {a : α} :
    (if b then .error e else x) = .ok a ↔ b = false ∧ x = .ok a := by
  cases b <;> simp

theorem exists_bind_pure_iff {x : Except ε α} {f : α → β} :
    (∃ b, (x >>= fun a => pure (f a)) = .ok b) ↔ ∃ a, x = .ok a := by
  constructor
  · rintro ⟨_, h⟩
    obtain ⟨a, ha, _⟩ := bind_pure_eq_ok_iff.1 h
    exact ⟨a, ha⟩
  · rintro ⟨a, ha⟩
    exact ⟨f a, bind_pure_eq_ok_iff.2 ⟨a, ha, rfl⟩⟩

/-- A traversal succeeds when every step does, with their results in order. -/
theorem mapM_eq_ok_iff {f : α → Except ε β} {l : List α} {ys : List β} :
    l.mapM f = .ok ys ↔ List.Forall₂ (fun a b => f a = .ok b) l ys := by
  induction l generalizing ys with
  | nil =>
    rw [List.mapM_nil, List.forall₂_nil_left_iff]
    exact ⟨fun h => (Except.ok.inj h).symm, fun h => h ▸ rfl⟩
  | cons a l ih =>
    rw [List.mapM_cons, List.forall₂_cons_left_iff]
    constructor
    · intro h
      obtain ⟨b, ha, h⟩ := bind_eq_ok_iff.1 h
      obtain ⟨bs, hl, h⟩ := bind_eq_ok_iff.1 h
      exact ⟨b, bs, ha, ih.1 hl, (pure_eq_ok_iff.1 h).symm⟩
    · rintro ⟨b, bs, ha, hl, rfl⟩
      rw [ha, ih.2 hl]
      rfl

theorem exists_mem_of_forall₂ {R : α → β → Prop} {l : List α} {ys : List β}
    (h : List.Forall₂ R l ys) {b : β} (hb : b ∈ ys) : ∃ a ∈ l, R a b := by
  induction h with
  | nil => cases hb
  | cons hr _ ih =>
    rcases List.mem_cons.1 hb with rfl | hb
    · exact ⟨_, List.mem_cons_self, hr⟩
    · obtain ⟨a, ha, hr⟩ := ih hb
      exact ⟨a, .tail _ ha, hr⟩

theorem exists_mapM_eq_ok {f : α → Except ε β} {l : List α} (h : ∀ a ∈ l, ∃ b, f a = .ok b) :
    ∃ ys, l.mapM f = .ok ys := by
  induction l with
  | nil => exact ⟨[], rfl⟩
  | cons a l ih =>
    obtain ⟨b, hb⟩ := h a List.mem_cons_self
    obtain ⟨bs, hbs⟩ := ih fun x hx => h x (.tail _ hx)
    exact ⟨b :: bs, mapM_eq_ok_iff.2 (.cons hb (mapM_eq_ok_iff.1 hbs))⟩

theorem exists_mapM_iff {f : α → Except ε β} {l : List α} :
    (∃ ys, l.mapM f = .ok ys) ↔ ∀ a ∈ l, ∃ b, f a = .ok b := by
  constructor
  · rintro ⟨ys, h⟩
    induction mapM_eq_ok_iff.1 h with
    | nil => exact fun _ ha => nomatch ha
    | cons hab hrest ih =>
      exact List.forall_mem_cons.2 ⟨⟨_, hab⟩, ih (mapM_eq_ok_iff.2 hrest)⟩
  · exact exists_mapM_eq_ok

/-- Two traversals, the second over the results of the first. -/
theorem exists_mapM_mapM {f : α → Except ε β} {g : β → Except δ γ} {R : α → γ → Prop} {l : List α}
    (h : ∀ a ∈ l, ∃ b c, f a = .ok b ∧ g b = .ok c ∧ R a c) :
    ∃ bs cs, l.mapM f = .ok bs ∧ bs.mapM g = .ok cs ∧ List.Forall₂ R l cs := by
  induction l with
  | nil => exact ⟨[], [], rfl, rfl, .nil⟩
  | cons a l ih =>
    obtain ⟨b, c, hb, hc, hr⟩ := h a List.mem_cons_self
    obtain ⟨bs, cs, hbs, hcs, hrs⟩ := ih fun x hx => h x (.tail _ hx)
    refine ⟨b :: bs, c :: cs, ?_, ?_, .cons hr hrs⟩
    · exact mapM_eq_ok_iff.2 (.cons hb (mapM_eq_ok_iff.1 hbs))
    · exact mapM_eq_ok_iff.2 (.cons hc (mapM_eq_ok_iff.1 hcs))

/-- Steps of which each leaves the state leave it together. -/
theorem foldlM_eq_some_self {f : β → α → Option β} {b : β} {l : List α}
    (h : ∀ a ∈ l, f b a = some b) : l.foldlM f b = some b := by
  induction l with
  | nil => rfl
  | cons a l ih =>
    rw [List.foldlM_cons, h a List.mem_cons_self]
    exact ih fun x hx => h x (.tail _ hx)

theorem mapM_eq_some_self_iff {f : α → Option α} {l : List α} :
    l.mapM f = some l ↔ ∀ a ∈ l, f a = some a := by
  induction l with
  | nil => simp
  | cons a l ih =>
    rw [List.forall_mem_cons, ← ih, List.mapM_cons]
    cases f a <;> cases l.mapM f <;> simp

/-- A traversal over the results of another one goes through both at each element. -/
theorem mapM_bind_mapM (f : α → Option β) (g : β → Option γ) (l : List α) :
    (l.mapM f).bind (·.mapM g) = l.mapM fun a => (f a).bind g := by
  induction l with
  | nil => rfl
  | cons a l ih =>
    rw [List.mapM_cons, List.mapM_cons, ← ih]
    cases f a with
    | none => rfl
    | some b =>
      cases l.mapM f with
      | none => cases hb : g b <;> simp [hb]
      | some bs => simp

end RecordMapper
