import RecordMapper.Proofs.Sql.Reading
import Mathlib.Data.List.Basic
/-!
Which conditions are read back as the trees they were written from. The forms that stand without
parentheses come apart as operands of tighter operators and on the right of others, and a negation
takes in the test that follows it.
-/

namespace RecordMapper.Sql

/-- A comparison or an arithmetic operation. -/
def Tree.isOperation : Tree → Bool
  | binary (.op _) _ _ => true
  | _ => false

namespace Reading

variable {level : Nat} {fs gs : List Frame} {t : Tree}

theorem complete_append (fs gs : List Frame) (t : Tree) :
    complete ⟨fs ++ gs, t⟩ = complete ⟨gs, complete ⟨fs, t⟩⟩ :=
  List.foldl_append

theorem complete_reduce (level : Nat) (fs : List Frame) (t : Tree) :
    (reduce level fs t).complete = complete ⟨fs, t⟩ := by
  induction fs generalizing t with
  | nil => rfl
  | cons f fs ih =>
    rw [reduce]
    split
    · exact ih _
    · rfl

theorem mem_reduce {f : Frame} (h : f ∈ (reduce level fs t).frames) : f ∈ fs := by
  induction fs generalizing t with
  | nil => exact h
  | cons g fs ih =>
    rw [reduce] at h
    split at h
    · exact .tail _ (ih h)
    · exact h

theorem reduce_all (h : ∀ f ∈ fs, level ≤ f.level) :
    reduce level fs t = ⟨[], complete ⟨fs, t⟩⟩ := by
  induction fs generalizing t with
  | nil => rfl
  | cons f fs ih =>
    rw [reduce, if_pos (h f List.mem_cons_self), ih fun g hg => h g (.tail _ hg)]
    rfl

/-- A connective takes all that binds at least as tightly. -/
theorem extend_all {r : Reading} {c : Connective} (h : ∀ f ∈ r.frames, c.level ≤ f.level) :
    r.extend c = [.left r.complete c] := by
  rw [extend, reduce_all h]

theorem extend_stop {c d : Connective} (h : d.level < c.level) (t u : Tree) :
    extend ⟨[.left t d], u⟩ c = [.left u c, .left t d] := by
  have hstop : ¬c.level ≤ (Frame.left t d).level := Nat.not_le.2 h
  rw [extend, reduce, if_neg hstop]

/-- The reading with further frames around it. -/
def under (r : Reading) (gs : List Frame) : Reading := ⟨r.frames ++ gs, r.tree⟩

theorem complete_under (r : Reading) (gs : List Frame) :
    (r.under gs).complete = complete ⟨gs, r.complete⟩ :=
  List.foldl_append

/-- The frames that a comparison leaves alone. -/
def Loose (gs : List Frame) : Prop := ∀ g, gs.head? = some g → g.level < 4

theorem loose_neg (gs : List Frame) : Loose (.neg :: gs) := by
  rintro g ⟨rfl⟩
  exact (by decide : 3 < 4)

theorem reduce_under (hl : 4 ≤ level) (hg : Loose gs) :
    reduce level (fs ++ gs) t = (reduce level fs t).under gs := by
  induction fs generalizing t with
  | nil =>
    cases gs with
    | nil => rfl
    | cons g gs =>
      have h := hg g rfl
      have hstop : ¬level ≤ g.level := by omega
      rw [List.nil_append, reduce, reduce, if_neg hstop]
      rfl
  | cons f fs ih =>
    rw [List.cons_append, reduce, reduce]
    split
    · exact ih
    · rfl

theorem extend_under (r : Reading) {c : Connective} (hl : 4 ≤ c.level) (hg : Loose gs) :
    (r.under gs).extend c = r.extend c ++ gs := by
  rw [extend, extend, under, reduce_under hl hg]
  rfl

theorem nullTest_under (r : Reading) (negated : Bool) (hg : Loose gs) :
    (r.under gs).nullTest negated = (r.nullTest negated).under gs := by
  rw [nullTest, nullTest, extend_under (c := .is negated) r (Nat.le_refl 4) hg]
  rfl

theorem member_under (r : Reading) (items : List Value) (hg : Loose gs) :
    (r.under gs).member items = (r.member items).under gs := by
  rw [member, member, under, reduce_under (Nat.le_refl 4) hg]
  rfl

/-- With frames around it, the operand does not decide what the outermost operator is. -/
theorem isOperation_complete (hf : fs ≠ []) (t u : Tree) :
    (complete ⟨fs, t⟩).isOperation = (complete ⟨fs, u⟩).isOperation := by
  induction fs generalizing t u with
  | nil => exact absurd rfl hf
  | cons f fs ih =>
    cases fs with
    | nil =>
      cases f with
      | neg => rfl
      | left l c => cases c <;> rfl
    | cons g gs => exact ih (List.cons_ne_nil g gs) (f.apply t) (f.apply u)

/-- A test that takes what is before it keeps the outermost operator or becomes it. -/
theorem isOperation_reduce {u : Tree} (hu : u.isOperation = false)
    (h : (complete ⟨fs, t⟩).isOperation = false ∨ (reduce level fs t).frames = []) :
    (complete ⟨(reduce level fs t).frames, u⟩).isOperation = false := by
  by_cases hf : (reduce level fs t).frames = []
  · rw [hf]
    exact hu
  · rw [isOperation_complete hf u (reduce level fs t).tree]
    rw [← complete_reduce level] at h
    exact h.resolve_right hf

theorem isOperation_nullTest {r : Reading} (negated : Bool)
    (h : r.complete.isOperation = false ∨ (reduce 4 r.frames r.tree).frames = []) :
    (r.nullTest negated).complete.isOperation = false :=
  isOperation_reduce (u := .binary (.is negated) _ .null) rfl h

theorem isOperation_member {r : Reading} (items : List Value)
    (h : r.complete.isOperation = false ∨ (reduce 4 r.frames r.tree).frames = []) :
    (r.member items).complete.isOperation = false :=
  isOperation_reduce (u := .member _ items) rfl h

end Reading

namespace Filter

open Reading

theorem four_le_level (op : Operator) : 4 ≤ (Connective.op op).level := by
  cases op <;> decide

/-- A filter is read after loose frames as it is read alone. -/
theorem scan_loose {gs : List Frame} (hg : Loose gs) (f : Filter) :
    f.scan gs = (f.scan []).under gs := by
  induction f with
  | column | null | bound | conj | disj | neg | binary | nullTest => rfl
  | hasValue e ih => rw [scan, scan, ih, nullTest_under _ _ hg]
  | member e items ih => rw [scan, scan, ih, member_under _ _ hg]
  | like name pattern =>
    have h := extend_under ⟨[], .name name⟩ (c := .like) (Nat.le_refl 4) hg
    rw [scan, scan]
    exact congrArg (Reading.mk · (.bound (.text pattern))) h

/-- Only negations and tests wait on the right of a filter. -/
theorem mem_scan {fs : List Frame} {g : Frame} (f : Filter) (h : g ∈ (f.scan fs).frames) :
    g ∈ fs ∨ 3 ≤ g.level := by
  induction f with
  | column | null | bound | conj | disj | binary | nullTest => exact .inl h
  | neg =>
    rcases List.mem_cons.1 h with rfl | h
    · exact .inr (Nat.le_refl 3)
    · exact .inl h
  | hasValue e ih =>
    rcases List.mem_cons.1 h with rfl | h
    · exact .inr (by decide : 3 ≤ (Connective.is true).level)
    · exact ih (mem_reduce h)
  | member e items ih => exact ih (mem_reduce h)
  | like =>
    rcases List.mem_cons.1 h with rfl | h
    · exact .inr (by decide : 3 ≤ Connective.like.level)
    · exact .inl (mem_reduce h)

/-- Conjunction and disjunction take the whole filter before them. -/
theorem extend_loose (f : Filter) {c : Connective} (hc : c.level < 3) :
    (f.scan []).extend c = [.left (f.scan []).complete c] := by
  have hall : ∀ g ∈ (f.scan []).frames, c.level ≤ g.level := by
    intro g hg
    rcases f.mem_scan hg with hn | hl
    · exact absurd hn List.not_mem_nil
    · omega
  rw [extend, reduce_all hall]

theorem complete_scan_loose (f : Filter) {t : Tree} {c : Connective} (hc : c.level < 4) :
    (f.scan [.left t c]).complete = .binary c t (f.scan []).complete := by
  have hl : Loose [.left t c] := by
    rintro g ⟨rfl⟩
    exact hc
  rw [scan_loose hl, complete_under]
  rfl

/-- The text of the filter starts with a negation. -/
def startsNegated : Filter → Bool
  | neg _ => true
  | hasValue e | member e _ => e.startsNegated
  | _ => false

/-- The filter ends in an operand that a tighter operator takes. -/
def isOpen : Filter → Bool
  | hasValue _ | like .. => true
  | _ => false

/-- The filter is a test without parentheses around it. -/
def isBare : Filter → Bool
  | hasValue _ | member .. | like .. => true
  | _ => false

/-- No operand is captured by an operator next to it. -/
def Grouped : Filter → Prop
  | column _ | null | bound _ | like .. => True
  | conj l r | disj l r => l.Grouped ∧ r.Grouped
  | neg e => e.Grouped
  | binary op l r =>
    l.Grouped ∧ r.Grouped ∧ l.startsNegated = false ∧ r.isBare = false ∧
      (op = .eq ∨ op = .ne ∨ l.isOpen = false)
  | hasValue e | nullTest _ e | member e _ => e.Grouped ∧ e.startsNegated = false

/-- A leading negation keeps all that follows it from what is before it. Only tests wait between the
two. -/
theorem exists_scan_of_startsNegated {f : Filter} (h : f.startsNegated = true) :
    ∃ r : Reading, (∀ g ∈ r.frames, 4 ≤ g.level) ∧ ∀ fs, f.scan fs = r.under (.neg :: fs) := by
  induction f with
  | column | null | bound | conj | disj | binary | nullTest | like => cases h
  | neg e => exact ⟨⟨[], (e.scan []).complete⟩, by simp, fun fs => rfl⟩
  | hasValue e ih =>
    obtain ⟨r, hl, hr⟩ := ih h
    refine ⟨r.nullTest true, fun g hg => ?_, fun fs => ?_⟩
    · rcases List.mem_cons.1 hg with rfl | hg
      · exact Nat.le_refl 4
      · exact hl g (mem_reduce hg)
    · rw [scan, hr, nullTest_under _ _ (loose_neg fs)]
  | member e items ih =>
    obtain ⟨r, hl, hr⟩ := ih h
    refine ⟨r.member items, fun g hg => hl g (mem_reduce hg), fun fs => ?_⟩
    rw [scan, hr, member_under _ _ (loose_neg fs)]

theorem scan_of_startsNegated {f : Filter} (h : f.startsNegated = true) (fs : List Frame) :
    ∃ r : Reading, f.scan fs = r.under (.neg :: fs) := by
  obtain ⟨r, _, hr⟩ := exists_scan_of_startsNegated h
  exact ⟨r, hr fs⟩

/-- Without a leading negation, a comparison that follows takes the whole filter. -/
theorem level_of_not_startsNegated {f : Filter} (h : f.startsNegated = false) {g : Frame}
    (hg : g ∈ (f.scan []).frames) : g.level = 4 := by
  induction f with
  | column | null | bound | conj | disj | binary | nullTest => cases hg
  | neg => cases h
  | hasValue e ih =>
    rcases List.mem_cons.1 hg with rfl | hg
    · rfl
    · exact ih h (mem_reduce hg)
  | member e items ih => exact ih h (mem_reduce hg)
  | like =>
    rcases List.mem_cons.1 hg with rfl | hg
    · rfl
    · cases mem_reduce hg

/-- Without a leading negation and an open end, every operator takes the whole filter. -/
theorem frames_of_closed {f : Filter} (h : f.startsNegated = false) (ho : f.isOpen = false) :
    (f.scan []).frames = [] := by
  cases f with
  | column | null | bound | conj | disj | binary | nullTest => rfl
  | neg => cases h
  | hasValue | like => cases ho
  | member e items =>
    have hall : ∀ g ∈ (e.scan []).frames, 4 ≤ g.level :=
      fun g hg => Nat.le_of_eq (level_of_not_startsNegated (f := e) h hg).symm
    rw [scan, Reading.member, reduce_all hall]

theorem complete_scan_of_not_bare {f : Filter} (h : f.isBare = false) (fs : List Frame) :
    (f.scan fs).complete = complete ⟨fs, (f.scan []).complete⟩ := by
  cases f with
  | column | null | bound | conj | disj | binary | nullTest | neg => rfl
  | hasValue | member | like => cases h

theorem frames_of_not_bare {f : Filter} (h : f.isBare = false) (hn : f.startsNegated = false)
    (fs : List Frame) : (f.scan fs).frames = fs := by
  cases f with
  | column | null | bound | conj | disj | binary | nullTest => rfl
  | neg => cases hn
  | hasValue | member | like => cases h

/-- On the right of an operator, a bare test takes the operator's left operand. -/
theorem isOperation_scan_of_bare {f : Filter} (h : f.isBare = true) (hn : f.startsNegated = false)
    (t : Tree) (op : Operator) : (f.scan [.left t (.op op)]).complete.isOperation = false := by
  have htake (u : Tree) : (reduce 4 [.left t (.op op)] u).frames = [] := by
    have hall : ∀ g ∈ [Frame.left t (.op op)], 4 ≤ g.level := by
      simpa [Frame.level] using four_le_level op
    rw [reduce_all hall]
  have hoperand {e : Filter} (ih : e.isBare = true →
      (e.scan [.left t (.op op)]).complete.isOperation = false) (he : e.startsNegated = false) :
      (e.scan [.left t (.op op)]).complete.isOperation = false ∨
        (reduce 4 (e.scan [.left t (.op op)]).frames (e.scan [.left t (.op op)]).tree).frames =
          [] := by
    cases hb : e.isBare with
    | true => exact .inl (ih hb)
    | false =>
      rw [frames_of_not_bare hb he]
      exact .inr (htake _)
  induction f with
  | column | null | bound | conj | disj | neg | binary | nullTest => cases h
  | hasValue e ih => exact isOperation_nullTest true (hoperand (fun hb => ih hb hn) hn)
  | member e items ih => exact isOperation_member items (hoperand (fun hb => ih hb hn) hn)
  | like name pattern =>
    exact isOperation_reduce (u := .binary .like _ (.bound (.text pattern))) rfl (.inr (htake _))

/-- Once the outermost operator is no operation, it stays that way. -/
theorem isOperation_scan {fs : List Frame}
    (ho : ∀ t, (complete ⟨fs, t⟩).isOperation = false) (f : Filter) :
    (f.scan fs).complete.isOperation = false := by
  induction f with
  | column | null | bound | conj | disj | binary | nullTest => exact ho _
  | neg e => exact ho (.neg (e.scan []).complete)
  | hasValue e ih => exact isOperation_nullTest true (.inl ih)
  | member e items ih => exact isOperation_member items (.inl ih)
  | like name pattern =>
    exact isOperation_reduce (u := .binary .like _ (.bound (.text pattern))) rfl (.inl (ho _))

theorem complete_of_startsNegated {f : Filter} (h : f.startsNegated = true) (fs : List Frame) :
    ∃ t, (f.scan fs).complete = complete ⟨fs, .neg t⟩ := by
  obtain ⟨r, hr⟩ := scan_of_startsNegated h fs
  exact ⟨r.complete, by rw [hr, complete_under]; rfl⟩

/-- A null test takes the whole filter before it, unless that starts with a negation. -/
theorem nullTest_scan {f : Filter} (h : f.startsNegated = false) (negated : Bool) :
    (f.scan []).nullTest negated = ⟨[.left (f.scan []).complete (.is negated)], .null⟩ := by
  have hall : ∀ g ∈ (f.scan []).frames, (Connective.is negated).level ≤ g.level :=
    fun g hg => Nat.le_of_eq (level_of_not_startsNegated h hg).symm
  rw [Reading.nullTest, extend_all hall]

/-- A left operand that a tighter operator takes apart leaves its own operator outermost. -/
theorem isOperation_extend {f : Filter} {op : Operator}
    (h : f.startsNegated = true ∨ f.isOpen = true ∧ 4 < (Connective.op op).level) (t : Tree) :
    (complete ⟨(f.scan []).extend (.op op), t⟩).isOperation = false := by
  cases hn : f.startsNegated with
  | true =>
    obtain ⟨r, hr⟩ := scan_of_startsNegated hn []
    rw [hr, extend_under r (four_le_level op) (loose_neg []), complete_append]
    rfl
  | false =>
    rw [hn] at h
    obtain ⟨ho, hlevel⟩ := h.resolve_left Bool.false_ne_true
    cases f with
    | column | null | bound | conj | disj | neg | binary | nullTest | member => cases ho
    | hasValue e =>
      rw [scan, nullTest_scan (f := e) hn, extend_stop (d := .is true) hlevel]
      rfl
    | like name pattern =>
      have hs : (like name pattern).scan [] =
          ⟨[.left (.name name) .like], .bound (.text pattern)⟩ := rfl
      rw [hs, extend_stop (d := .like) hlevel]
      rfl

theorem complete_member {f : Filter} (h : f.startsNegated = false) (items : List Value) :
    ((f.scan []).member items).complete = .member (f.scan []).complete items := by
  have hall : ∀ g ∈ (f.scan []).frames, 4 ≤ g.level :=
    fun g hg => Nat.le_of_eq (level_of_not_startsNegated h hg).symm
  rw [Reading.member, reduce_all hall]
  rfl

/-- A leading negation takes in what follows the filter. -/
theorem exists_neg_of_startsNegated {f : Filter} (h : f.startsNegated = true) :
    (∀ negated, ∃ t, ((f.scan []).nullTest negated).complete = .neg t) ∧
      ∀ items, ∃ t, ((f.scan []).member items).complete = .neg t := by
  obtain ⟨r, hr⟩ := scan_of_startsNegated h []
  constructor
  · intro negated
    exact ⟨_, by rw [hr, nullTest_under _ _ (loose_neg []), complete_under]; rfl⟩
  · intro items
    exact ⟨_, by rw [hr, member_under _ _ (loose_neg []), complete_under]; rfl⟩

theorem complete_nullTest_iff {f : Filter} (negated : Bool)
    (ih : (f.scan []).complete = f.tree ↔ f.Grouped) :
    ((f.scan []).nullTest negated).complete = .binary (.is negated) f.tree .null ↔
      f.Grouped ∧ f.startsNegated = false := by
  cases hn : f.startsNegated with
  | true =>
    obtain ⟨t, ht⟩ := (exists_neg_of_startsNegated hn).1 negated
    simp [ht]
  | false =>
    rw [nullTest_scan hn]
    simp [← ih, complete, Frame.apply]

theorem complete_member_iff {f : Filter} (items : List Value)
    (ih : (f.scan []).complete = f.tree ↔ f.Grouped) :
    ((f.scan []).member items).complete = .member f.tree items ↔
      f.Grouped ∧ f.startsNegated = false := by
  cases hn : f.startsNegated with
  | true =>
    obtain ⟨t, ht⟩ := (exists_neg_of_startsNegated hn).2 items
    simp [ht]
  | false =>
    rw [complete_member hn]
    simp [← ih]

theorem complete_pair_iff {l r : Filter} {c : Connective} (hc : c.level < 3)
    (ihl : (l.scan []).complete = l.tree ↔ l.Grouped)
    (ihr : (r.scan []).complete = r.tree ↔ r.Grouped) :
    (r.scan ((l.scan []).extend c)).complete = .binary c l.tree r.tree ↔
      l.Grouped ∧ r.Grouped := by
  rw [extend_loose l hc, complete_scan_loose r (by omega), Tree.binary.injEq, ihl, ihr]
  simp

/-- An operator takes the whole of its left operand. -/
theorem extend_operation {l : Filter} {op : Operator} (hn : l.startsNegated = false)
    (ho : op = .eq ∨ op = .ne ∨ l.isOpen = false) :
    (l.scan []).extend (.op op) = [.left (l.scan []).complete (.op op)] := by
  have hall : ∀ g ∈ (l.scan []).frames, (Connective.op op).level ≤ g.level := by
    intro g hg
    rcases ho with rfl | rfl | ho
    · exact Nat.le_of_eq (level_of_not_startsNegated hn hg).symm
    · exact Nat.le_of_eq (level_of_not_startsNegated hn hg).symm
    · rw [frames_of_closed hn ho] at hg
      cases hg
  exact extend_all hall

/-- An operator takes the whole of its right operand, unless that is a bare test. -/
theorem complete_right_iff {r : Filter} (op : Operator) (t u : Tree)
    (ih : (r.scan []).complete = r.tree ↔ r.Grouped) :
    (r.scan [.left t (.op op)]).complete = .binary (.op op) u r.tree ↔
      t = u ∧ r.Grouped ∧ r.isBare = false := by
  cases hb : r.isBare with
  | false =>
    rw [complete_scan_of_not_bare hb]
    simp [complete, Frame.apply, ← ih]
  | true =>
    constructor
    · intro h
      cases hn : r.startsNegated with
      | false =>
        have hno := isOperation_scan_of_bare hb hn t op
        rw [h] at hno
        cases hno
      | true =>
        obtain ⟨v, hv⟩ := complete_of_startsNegated hn [.left t (.op op)]
        rw [hv] at h
        have htree : Tree.neg v = r.tree := (Tree.binary.inj h).2.2
        cases r with
        | neg => cases hb
        | column | null | bound | conj | disj | binary | hasValue | nullTest | member | like =>
          cases htree
    · rintro ⟨_, _, hb'⟩
      cases hb'

theorem complete_operation_iff {l r : Filter} (op : Operator)
    (ihl : (l.scan []).complete = l.tree ↔ l.Grouped)
    (ihr : (r.scan []).complete = r.tree ↔ r.Grouped) :
    (r.scan ((l.scan []).extend (.op op))).complete = .binary (.op op) l.tree r.tree ↔
      (binary op l r).Grouped := by
  by_cases hl : l.startsNegated = false ∧ (op = .eq ∨ op = .ne ∨ l.isOpen = false)
  · rw [extend_operation hl.1 hl.2, complete_right_iff op _ _ ihr, ihl]
    simp [Grouped, hl]
  · have hc : l.startsNegated = true ∨ l.isOpen = true ∧ 4 < (Connective.op op).level := by
      by_cases hn : l.startsNegated = true
      · exact .inl hn
      · refine .inr ?_
        simp only [Bool.not_eq_true] at hn
        simp only [hn, true_and, not_or, Bool.not_eq_false] at hl
        cases op <;> simp_all [Connective.level]
    constructor
    · intro h
      have hno := r.isOperation_scan (isOperation_extend hc)
      rw [h] at hno
      cases hno
    · rintro ⟨_, _, hn, _, ho⟩
      exact absurd ⟨hn, ho⟩ hl

/-- What is read from a filter is what it stands for exactly when it is grouped. -/
theorem complete_scan_iff (f : Filter) : (f.scan []).complete = f.tree ↔ f.Grouped := by
  induction f with
  | column | null | bound | like => exact ⟨fun _ => trivial, fun _ => rfl⟩
  | conj l r ihl ihr => exact complete_pair_iff (c := .conj) (by decide) ihl ihr
  | disj l r ihl ihr => exact complete_pair_iff (c := .disj) (by decide) ihl ihr
  | neg e ih =>
    have hneg : ((neg e).scan []).complete = .neg (e.scan []).complete := rfl
    rw [hneg, tree, Tree.neg.injEq]
    exact ih
  | binary op l r ihl ihr => exact complete_operation_iff op ihl ihr
  | hasValue e ih => exact complete_nullTest_iff true ih
  | nullTest negated e ih => exact complete_nullTest_iff negated ih
  | member e items ih => exact complete_member_iff items ih

/-- What is read from further conditions after the first. -/
def scanRest : Reading → List Filter → Reading
  | r, [] => r
  | r, f :: fs => scanRest (f.scan (r.extend .conj)) fs

theorem run_conditions {f : Filter} {fs : List Filter} (h : ∀ g ∈ f :: fs, g.HasItems)
    (gs : List Frame) : (Reader.operand [] gs).run (conditionTokens (f :: fs)) =
      some (.connective [] (scanRest (f.scan gs) fs)) := by
  induction fs generalizing f gs with
  | nil =>
    have hf := run_tokens (h f List.mem_cons_self) [] gs
    simpa [conditionTokens, scanRest] using hf
  | cons g fs ih =>
    have hg := ih (fun k hk => h k (.tail _ hk)) ((f.scan gs).extend .conj)
    have hstep : Reader.step (.connective [] (f.scan gs)) .conj =
        some (.operand [] ((f.scan gs).extend .conj)) := rfl
    have ht : conditionTokens (f :: g :: fs) = f.tokens ++ .conj :: conditionTokens (g :: fs) := rfl
    rw [ht, Reader.run_append, run_tokens (h f List.mem_cons_self), Option.bind_some,
      Reader.run_cons, hstep, Option.bind_some, hg, scanRest]

/-- `AND` keeps conditions apart, whatever they end with. -/
theorem complete_scanRest {r : Reading} (hr : ∀ g ∈ r.frames, 2 ≤ g.level) (fs : List Filter) :
    (scanRest r fs).complete =
      (fs.map fun f => (f.scan []).complete).foldl (.binary .conj) r.complete := by
  induction fs generalizing r with
  | nil => rfl
  | cons f fs ih =>
    have he : r.extend .conj = [.left r.complete .conj] := extend_all hr
    have hf : ∀ g ∈ (f.scan [.left r.complete .conj]).frames, 2 ≤ g.level := by
      intro g hg
      rcases f.mem_scan hg with hg | hg
      · rw [List.mem_singleton.1 hg]
        exact Nat.le_refl 2
      · omega
    rw [scanRest, he, ih hf, complete_scan_loose f (by decide)]
    rfl

end Filter

/-- Conditions that all have to hold, as one. -/
def Tree.conjunction (t : Tree) (ts : List Tree) : Tree := ts.foldl (.binary .conj) t

theorem Tree.conjunction_inj {t u : Tree} {ts us : List Tree} (h : ts.length = us.length) :
    t.conjunction ts = u.conjunction us ↔ t :: ts = u :: us := by
  induction ts generalizing t u us with
  | nil =>
    rw [List.length_nil, eq_comm, List.length_eq_zero_iff] at h
    rw [h]
    simp [conjunction]
  | cons a ts ih =>
    cases us with
    | nil => cases h
    | cons b us =>
      have hl : ts.length = us.length := Nat.succ.inj h
      have hi : (Tree.binary .conj t a).conjunction ts = (Tree.binary .conj u b).conjunction us ↔
          Tree.binary .conj t a :: ts = .binary .conj u b :: us := ih hl
      rw [conjunction, conjunction] at hi
      rw [conjunction, conjunction, List.foldl_cons, List.foldl_cons, hi]
      simp [and_assoc]

theorem readTokens_conditions {f : Filter} {fs : List Filter} (h : ∀ g ∈ f :: fs, g.HasItems) :
    readTokens (conditionTokens (f :: fs)) =
      some ((f.scan []).complete.conjunction (fs.map fun g => (g.scan []).complete)) := by
  have hf : ∀ g ∈ (f.scan []).frames, 2 ≤ g.level := by
    intro g hg
    rcases f.mem_scan hg with hg | hg
    · cases hg
    · omega
  rw [readTokens, Filter.run_conditions h, Option.bind_some, Reader.finish,
    Filter.complete_scanRest hf]
  rfl

/-- Conditions are read as they were meant exactly when each is grouped. -/
theorem readTokens_conditions_eq {f : Filter} {fs : List Filter} (h : ∀ g ∈ f :: fs, g.HasItems) :
    readTokens (conditionTokens (f :: fs)) = some (f.tree.conjunction (fs.map Filter.tree)) ↔
      ∀ g ∈ f :: fs, g.Grouped := by
  rw [readTokens_conditions h, Option.some.injEq, Tree.conjunction_inj (by simp), List.cons.injEq,
    List.map_inj_left, List.forall_mem_cons, f.complete_scan_iff]
  simp only [Filter.complete_scan_iff]

end RecordMapper.Sql
