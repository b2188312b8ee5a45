import RecordMapper.Proofs.Derive.Gathering
import RecordMapper.Proofs.Traversal
/-!
The arguments of an attribute as the pieces between its commas. Each piece gives something of its
own, and an argument list gives all of that together, in whatever order the pieces stand.
-/

namespace RecordMapper.Derive

/-! ### Tokens compared -/

mutual

def Token.decEq : (s t : Token) → Decidable (s = t)
  | .word a, .word b => decidable_of_iff (a = b) (by rw [Token.word.injEq])
  | .mark a i, .mark b j => decidable_of_iff (a = b ∧ i = j) (by rw [Token.mark.injEq])
  | .literal a, .literal b => decidable_of_iff (a = b) (by rw [Token.literal.injEq])
  | .group c a, .group d b =>
    haveI := decEqAll a b
    decidable_of_iff (c = d ∧ a = b) (by rw [Token.group.injEq])
  | .word _, .mark .. | .word _, .literal _ | .word _, .group .. => isFalse nofun
  | .mark .., .word _ | .mark .., .literal _ | .mark .., .group .. => isFalse nofun
  | .literal _, .word _ | .literal _, .mark .. | .literal _, .group .. => isFalse nofun
  | .group .., .word _ | .group .., .mark .. | .group .., .literal _ => isFalse nofun

def decEqAll : (s t : List Token) → Decidable (s = t)
  | [], [] => isTrue rfl
  | a :: s, b :: t =>
    haveI := Token.decEq a b
    haveI := decEqAll s t
    decidable_of_iff (a = b ∧ s = t) (by rw [List.cons.injEq])
  | [], _ :: _ | _ :: _, [] => isFalse nofun

end

instance : DecidableEq Token := Token.decEq

/-! ### Pieces between commas -/

def Token.isComma : Token → Bool
  | .mark ',' _ => true
  | _ => false

theorem Token.exists_of_isComma {t : Token} (h : t.isComma = true) :
    ∃ joined, t = .mark ',' joined := by
  unfold isComma at h
  split at h
  · exact ⟨_, rfl⟩
  · cases h

/-- What stands between commas, one more than there are commas. -/
def split (tokens : List Token) : List (List Token) := tokens.splitOnP Token.isComma

theorem split_comma (joined : Bool) (rest : List Token) :
    split (.mark ',' joined :: rest) = [] :: split rest := by
  rw [split, List.splitOnP_cons_eq_if_modifyHead]
  rfl

theorem split_append {piece : List Token} (h : ∀ t ∈ piece, t.isComma = false)
    (rest : List Token) : split (piece ++ rest) = (split rest).modifyHead (piece ++ ·) := by
  induction piece with
  | nil => cases h : split rest <;> simp [h]
  | cons t piece ih =>
    obtain ⟨ht, hpiece⟩ := List.forall_mem_cons.1 h
    have hrest := ih hpiece
    unfold split at hrest ⊢
    rw [List.cons_append, List.splitOnP_cons_eq_if_modifyHead, ht, hrest,
      List.modifyHead_modifyHead]
    rfl

theorem split_piece {piece : List Token} (h : ∀ t ∈ piece, t.isComma = false) :
    split piece = [piece] :=
  List.splitOnP_eq_singleton h

/-- The first piece, to the end of the tokens or to a comma. -/
theorem split_cases (tokens : List Token) :
    split tokens = [tokens] ∨
      ∃ piece joined rest, tokens = piece ++ .mark ',' joined :: rest ∧
        split tokens = piece :: split rest := by
  cases h : tokens.find? Token.isComma with
  | none =>
    exact .inl (split_piece fun t ht => Bool.eq_false_iff.2 (List.find?_eq_none.1 h t ht))
  | some sep =>
    obtain ⟨hsep, piece, rest, rfl, hpiece⟩ := List.find?_eq_some_iff_append.1 h
    obtain ⟨joined, rfl⟩ := Token.exists_of_isComma hsep
    have hplain : ∀ t ∈ piece, t.isComma = false := fun t ht => by simpa using hpiece t ht
    refine .inr ⟨piece, joined, rest, rfl, ?_⟩
    rw [split_append hplain, split_comma, List.modifyHead_cons, List.append_nil]

theorem split_eq_nil_cons {tokens : List Token} {more : List (List Token)}
    (h : split tokens = [] :: more) : tokens = [] ∧ more = [] ∨
      ∃ joined rest, tokens = .mark ',' joined :: rest ∧ more = split rest := by
  rcases split_cases tokens with hs | ⟨piece, joined, rest, rfl, hs⟩
  · rw [hs] at h
    cases h
    exact .inl ⟨rfl, rfl⟩
  · rw [hs] at h
    cases h
    exact .inr ⟨joined, rest, rfl, rfl⟩

theorem exists_of_split_eq_cons {tokens piece : List Token} {more : List (List Token)}
    (h : split tokens = piece :: more) :
    ∃ rest, tokens = piece ++ rest ∧ split rest = [] :: more := by
  rcases split_cases tokens with hs | ⟨_, joined, rest, rfl, hs⟩
  · rw [hs] at h
    cases h
    exact ⟨[], (List.append_nil _).symm, rfl⟩
  · rw [hs] at h
    cases h
    exact ⟨_, rfl, split_comma joined rest⟩

/-- The token without what follows it: a mark may be joined to the next one. -/
def Token.alone : Token → Token
  | .mark char _ => .mark char false
  | token => token

namespace Token

@[simp]
theorem alone_eq_word_iff {t : Token} {word : String} : t.alone = .word word ↔ t = .word word := by
  cases t <;> simp [alone]

@[simp]
theorem alone_eq_literal_iff {t : Token} {literal : Literal} :
    t.alone = .literal literal ↔ t = .literal literal := by
  cases t <;> simp [alone]

theorem exists_of_alone_eq_mark {t : Token} {char : Char} {joined : Bool}
    (h : t.alone = .mark char joined) : ∃ joined, t = .mark char joined := by
  cases t with
  | mark =>
    cases h
    exact ⟨_, rfl⟩
  | word | literal | group => cases h

end Token

/-- The pieces between commas, each by itself. -/
def pieces (tokens : List Token) : List (List Token) := (split tokens).map (·.map Token.alone)

/-- Pieces change places. Where there is none between two commas, there is none still. -/
def Rearranged (l l' : List (List Token)) : Prop :=
  l.Perm l' ∧ l.map List.isEmpty = l'.map List.isEmpty

instance (l l' : List (List Token)) : Decidable (Rearranged l l') :=
  inferInstanceAs (Decidable (_ ∧ _))

theorem named_eq_ok_iff {fault : ItemFault} {literal found : TextLiteral} :
    named fault literal = .ok found ↔ Text.isBlankText literal.value = false ∧ literal = found := by
  unfold named
  cases Text.isBlankText literal.value <;> simp

namespace ColumnArguments

variable {c d e : ColumnArguments} {piece tokens rest : List Token}

/-- What one argument gives. -/
inductive Gives : List Token → ColumnArguments → Prop
  | text {literal : TextLiteral} (h : Text.isBlankText literal.value = false) :
      Gives [.literal (.text literal)] { name := some literal.value }
  | named {joined : Bool} {literal : TextLiteral} (h : Text.isBlankText literal.value = false) :
      Gives [.word "name", .mark '=' joined, .literal (.text literal)]
        { name := some literal.value }
  | storage {word : String} {storage : PlainStorage} (h : storageWord? word = some storage) :
      Gives [.word word] { storage := some storage }

/-- Neither a name nor a storage class is given twice. -/
@[mk_iff]
structure Merges (c d e : ColumnArguments) : Prop where
  name : OneOf none c.name d.name e.name
  storage : OneOf none c.storage d.storage e.storage

theorem Merges.swaps : Swaps Merges := by
  intro c d e u t h h'
  obtain ⟨name, hname, hname'⟩ := OneOf.swaps _ h.name h'.name
  obtain ⟨storage, hstorage, hstorage'⟩ := OneOf.swaps _ h.storage h'.storage
  exact ⟨⟨name, storage⟩, ⟨hname, hstorage⟩, ⟨hname', hstorage'⟩⟩

theorem merges_name_iff {name : String} : c.Merges { name := some name } e ↔
    c.name = none ∧ { c with name := some name } = e := by
  cases e
  simp [merges_iff, and_assoc]

theorem withName_eq_ok_iff {literal : TextLiteral} : c.withName literal = .ok e ↔
    Text.isBlankText literal.value = false ∧ c.Merges { name := some literal.value } e := by
  rw [merges_name_iff]
  unfold withName
  cases hn : c.name with
  | none =>
    simp only [Option.isSome_none, Bool.false_eq_true, ↓reduceIte, map_eq_ok_iff, named_eq_ok_iff]
    constructor
    · rintro ⟨_, ⟨hblank, rfl⟩, rfl⟩
      exact ⟨hblank, trivial, rfl⟩
    · rintro ⟨hblank, _, rfl⟩
      exact ⟨_, ⟨hblank, rfl⟩, rfl⟩
  | some => simp

theorem merges_storage_iff {storage : PlainStorage} : c.Merges { storage := some storage } e ↔
    c.storage = none ∧ { c with storage := some storage } = e := by
  cases e
  simp [merges_iff, and_left_comm]

theorem withStorage_eq_ok_iff {storage : PlainStorage} : c.withStorage storage = .ok e ↔
    c.Merges { storage := some storage } e := by
  rw [merges_storage_iff]
  unfold withStorage
  cases c.storage <;> simp [eq_comm]

theorem next_eq_ok_iff : c.next tokens = .ok (e, rest) ↔
    ∃ piece d, tokens = piece ++ rest ∧ Gives piece d ∧ c.Merges d e := by
  constructor
  · intro h
    unfold next at h
    split at h
    next =>
      obtain ⟨_, hname, he⟩ := map_eq_ok_iff.1 h
      cases he
      obtain ⟨hblank, hmerge⟩ := withName_eq_ok_iff.1 hname
      exact ⟨_, _, rfl, .text hblank, hmerge⟩
    next =>
      split at h
      next hword =>
        subst hword
        split at h
        next => cases h
        next =>
          split at h
          next =>
            obtain ⟨_, hname, he⟩ := map_eq_ok_iff.1 h
            cases he
            obtain ⟨hblank, hmerge⟩ := withName_eq_ok_iff.1 hname
            exact ⟨_, _, rfl, .named hblank, hmerge⟩
          next => cases h
      next =>
        split at h
        next hword =>
          obtain ⟨_, hstorage, he⟩ := map_eq_ok_iff.1 h
          cases he
          exact ⟨_, _, rfl, .storage hword, withStorage_eq_ok_iff.1 hstorage⟩
        next => cases h
    next => cases h
  · rintro ⟨_, _, rfl, hgives, hmerge⟩
    cases hgives with
    | text hblank =>
      exact map_eq_ok_iff.2 ⟨_, withName_eq_ok_iff.2 ⟨hblank, hmerge⟩, rfl⟩
    | named hblank =>
      have hname := withName_eq_ok_iff.2 ⟨hblank, hmerge⟩
      have hnone : c.name.isSome = false := by
        by_contra hsome
        rw [withName, if_pos ((Bool.not_eq_false _).mp hsome)] at hname
        cases hname
      simp only [List.cons_append, List.nil_append, next, hnone]
      exact map_eq_ok_iff.2 ⟨_, hname, rfl⟩
    | @storage word _ hword =>
      have hother : word ≠ "name" := by
        rintro rfl
        cases hword
      simp only [List.cons_append, List.nil_append, next, if_neg hother, hword]
      exact map_eq_ok_iff.2 ⟨_, withStorage_eq_ok_iff.2 hmerge, rfl⟩

theorem Gives.isComma (h : Gives piece d) : ∀ t ∈ piece, t.isComma = false := by
  cases h <;> simp [Token.isComma]

theorem gives_map_alone : Gives (piece.map Token.alone) d ↔ Gives piece d := by
  constructor
  · intro h
    generalize hp : piece.map Token.alone = alone at h
    cases h with
    | text hblank =>
      obtain ⟨_, rfl, ht⟩ := List.map_eq_singleton_iff.1 hp
      rw [Token.alone_eq_literal_iff.1 ht]
      exact .text hblank
    | named hblank =>
      obtain ⟨_, _, rfl, hname, hp⟩ := List.map_eq_cons_iff.1 hp
      obtain ⟨_, _, rfl, hsign, hp⟩ := List.map_eq_cons_iff.1 hp
      obtain ⟨_, rfl, hliteral⟩ := List.map_eq_singleton_iff.1 hp
      obtain ⟨joined, rfl⟩ := Token.exists_of_alone_eq_mark hsign
      rw [Token.alone_eq_word_iff.1 hname, Token.alone_eq_literal_iff.1 hliteral]
      exact .named hblank
    | storage hword =>
      obtain ⟨_, rfl, ht⟩ := List.map_eq_singleton_iff.1 hp
      rw [Token.alone_eq_word_iff.1 ht]
      exact .storage hword
  · intro h
    cases h with
    | text hblank => exact .text hblank
    | named hblank => exact .named hblank
    | storage hword => exact .storage hword

/-- Each piece between commas has to give something, and no two may give the same. -/
theorem readUpTo_eq_ok_iff {bound : Nat} (hbound : tokens.length < bound) :
    readUpTo bound c tokens = .ok e ↔ Gathers Gives Merges c (split tokens) e := by
  induction bound generalizing c tokens with
  | zero => cases hbound
  | succ bound ih =>
    rw [readUpTo, bind_eq_ok_iff]
    constructor
    · rintro ⟨⟨u, rest⟩, hnext, h⟩
      -- what is read next is the first piece, as it holds no comma
      obtain ⟨piece, d, rfl, hgives, hmerge⟩ := next_eq_ok_iff.1 hnext
      dsimp only at h
      split at h
      next =>
        cases h
        rw [List.append_nil, split_piece hgives.isComma]
        exact .cons hgives hmerge (.nil _)
      next =>
        rw [split_append hgives.isComma, split_comma, List.modifyHead_cons, List.append_nil]
        rw [List.length_append, List.length_cons] at hbound
        exact .cons hgives hmerge ((ih (by omega)).1 h)
      next => cases h
    · intro h
      rcases split_cases tokens with hs | ⟨piece, joined, rest, rfl, hs⟩
      · rw [hs] at h
        cases h with
        | @cons _ d _ _ _ _ hgives hmerge h =>
          cases h
          exact ⟨(e, []), next_eq_ok_iff.2 ⟨tokens, d, (List.append_nil _).symm, hgives, hmerge⟩,
            rfl⟩
      · rw [hs] at h
        rw [List.length_append, List.length_cons] at hbound
        cases h with
        | @cons _ d u _ _ _ hgives hmerge h =>
          exact ⟨(u, .mark ',' joined :: rest), next_eq_ok_iff.2 ⟨piece, d, rfl, hgives, hmerge⟩,
            (ih (by omega)).2 h⟩

theorem read_eq_ok_iff : read tokens = .ok c ↔ Gathers Gives Merges {} (pieces tokens) c := by
  rw [read, readUpTo_eq_ok_iff (Nat.lt_succ_self _), pieces, gathers_map]
  simp only [gives_map_alone]

/-- Arguments in another order are read alike. -/
theorem read_perm {tokens' : List Token} (h : (pieces tokens).Perm (pieces tokens')) :
    read tokens = .ok c ↔ read tokens' = .ok c := by
  rw [read_eq_ok_iff, read_eq_ok_iff]
  exact ⟨.perm Merges.swaps h, .perm Merges.swaps h.symm⟩

end ColumnArguments

namespace JoinArguments

variable {j k u : JoinArguments} {piece tokens rest : List Token} {side : Side} {name : String}

/-- What one argument gives. -/
inductive Gives : List Token → JoinArguments → Prop
  | field {side : Side} {joined : Bool} {name : String} (h : keywords.contains name = false) :
      Gives [.word side.name, .mark '=' joined, .word name] (withField {} name side)
  | index : Gives [.word "index"] { index := true }

/-- Neither a side nor the index is given twice. -/
@[mk_iff]
structure Merges (j k u : JoinArguments) : Prop where
  left : OneOf none j.left k.left u.left
  right : OneOf none j.right k.right u.right
  index : OneOf false j.index k.index u.index

theorem Merges.swaps : Swaps Merges := by
  intro j k l u t h h'
  obtain ⟨left, hleft, hleft'⟩ := OneOf.swaps _ h.left h'.left
  obtain ⟨right, hright, hright'⟩ := OneOf.swaps _ h.right h'.right
  obtain ⟨index, hindex, hindex'⟩ := OneOf.swaps _ h.index h'.index
  exact ⟨⟨left, right, index⟩, ⟨hleft, hright, hindex⟩, ⟨hleft', hright', hindex'⟩⟩

theorem merges_field_iff : j.Merges (withField {} name side) u ↔
    j.field side = none ∧ j.withField name side = u := by
  cases u
  cases side with
  | left => simp [merges_iff, field, withField, and_assoc]
  | right => simp [merges_iff, field, withField, and_assoc, and_left_comm]

theorem merges_index_iff : j.Merges { index := true } u ↔
    j.index = false ∧ { j with index := true } = u := by
  cases u
  simp [merges_iff, and_left_comm]

theorem nextField_eq_ok_iff : j.nextField side tokens = .ok (u, rest) ↔
    ∃ joined name, tokens = .mark '=' joined :: .word name :: rest ∧
      keywords.contains name = false ∧ j.Merges (withField {} name side) u := by
  constructor
  · intro h
    unfold nextField at h
    split at h
    next =>
      split at h
      next => cases h
      next hnone =>
        split at h
        next =>
          split at h
          next => cases h
          next hname =>
            cases h
            exact ⟨_, _, rfl, Bool.eq_false_iff.2 hname,
              merges_field_iff.2 ⟨Option.not_isSome_iff_eq_none.1 hnone, rfl⟩⟩
        next => cases h
    next => cases h
  · rintro ⟨joined, name, rfl, hname, hmerge⟩
    obtain ⟨hnone, rfl⟩ := merges_field_iff.1 hmerge
    simp only [nextField, hnone, hname, Option.isSome_none, Bool.false_eq_true, ↓reduceIte]

theorem next_eq_ok_iff : j.next tokens = .ok (u, rest) ↔
    ∃ piece k, tokens = piece ++ rest ∧ Gives piece k ∧ j.Merges k u := by
  constructor
  · intro h
    unfold next at h
    split at h
    next word found =>
      have hfield {side : Side} (h : j.nextField side found = .ok (u, rest)) :
          ∃ piece k, .word side.name :: found = piece ++ rest ∧ Gives piece k ∧ j.Merges k u := by
        obtain ⟨joined, name, rfl, hname, hmerge⟩ := nextField_eq_ok_iff.1 h
        exact ⟨_, _, rfl, .field hname, hmerge⟩
      split at h
      next hword =>
        subst hword
        exact hfield h
      next =>
        split at h
        next hword =>
          subst hword
          exact hfield h
        next =>
          split at h
          next hword =>
            subst hword
            split at h
            next => cases h
            next hnone =>
              cases h
              exact ⟨_, _, rfl, .index, merges_index_iff.2 ⟨Bool.eq_false_iff.2 hnone, rfl⟩⟩
          next => cases h
    next => cases h
  · rintro ⟨_, _, rfl, hgives, hmerge⟩
    cases hgives with
    | @field side joined name hname =>
      have h := nextField_eq_ok_iff.2 ⟨joined, name, Eq.refl (_ :: _ :: rest), hname, hmerge⟩
      cases side with
      | left => exact h
      | right => exact h
    | index =>
      obtain ⟨hnone, rfl⟩ := merges_index_iff.1 hmerge
      simp [next, hnone]

theorem Gives.isComma (h : Gives piece k) : ∀ t ∈ piece, t.isComma = false := by
  cases h <;> simp [Token.isComma]

theorem Gives.ne_nil (h : Gives piece k) : piece ≠ [] := by
  cases h <;> exact List.cons_ne_nil _ _

theorem gives_map_alone : Gives (piece.map Token.alone) k ↔ Gives piece k := by
  constructor
  · intro h
    generalize hp : piece.map Token.alone = alone at h
    cases h with
    | field hname =>
      obtain ⟨_, _, rfl, hside, hp⟩ := List.map_eq_cons_iff.1 hp
      obtain ⟨_, _, rfl, hsign, hp⟩ := List.map_eq_cons_iff.1 hp
      obtain ⟨_, rfl, hfield⟩ := List.map_eq_singleton_iff.1 hp
      obtain ⟨joined, rfl⟩ := Token.exists_of_alone_eq_mark hsign
      rw [Token.alone_eq_word_iff.1 hside, Token.alone_eq_word_iff.1 hfield]
      exact .field hname
    | index =>
      obtain ⟨_, rfl, ht⟩ := List.map_eq_singleton_iff.1 hp
      rw [Token.alone_eq_word_iff.1 ht]
      exact .index
  · intro h
    cases h with
    | field hname => exact .field hname
    | index => exact .index

/-- The arguments among the pieces. Nothing stands before the first comma, and nothing has to stand
after the last one. -/
def Lists (pieces args : List (List Token)) : Prop :=
  ∃ more, pieces = [] :: more ∧ (more = args ∨ more = args ++ [[]])

theorem readUpTo_comma {bound : Nat} {joined : Bool} (h : rest ≠ []) :
    readUpTo (bound + 1) j (.mark ',' joined :: rest) =
      (do let (j, rest) ← j.next rest; readUpTo bound j rest) := by
  cases rest with
  | nil => contradiction
  | cons => rfl

theorem readUpTo_eq_ok_iff {bound : Nat} (hbound : tokens.length < bound) :
    readUpTo bound j tokens = .ok u ↔
      ∃ args, Lists (split tokens) args ∧ Gathers Gives Merges j args u := by
  induction bound generalizing j tokens with
  | zero => cases hbound
  | succ bound ih =>
    constructor
    · intro h
      unfold readUpTo at h
      split at h
      next => contradiction
      next =>
        cases h
        exact ⟨[], ⟨[], rfl, .inl rfl⟩, .nil _⟩
      next =>
        cases h
        exact ⟨[], ⟨[[]], split_comma .., .inr rfl⟩, .nil _⟩
      next hb =>
        cases hb
        obtain ⟨⟨k, rest⟩, hnext, hread⟩ := bind_eq_ok_iff.1 h
        obtain ⟨piece, d, rfl, hgives, hmerge⟩ := next_eq_ok_iff.1 hnext
        rw [List.length_cons, List.length_append] at hbound
        obtain ⟨args, ⟨more, hs, hmore⟩, hargs⟩ := (ih (by omega)).1 hread
        refine ⟨piece :: args, ⟨piece :: more, ?_, ?_⟩, .cons hgives hmerge hargs⟩
        · rw [split_comma, split_append hgives.isComma, hs, List.modifyHead_cons, List.append_nil]
        · exact hmore.imp (congrArg _) (congrArg _)
      next => cases h
    · rintro ⟨args, ⟨more, hs, hmore⟩, hargs⟩
      rcases split_eq_nil_cons hs with ⟨rfl, rfl⟩ | ⟨joined, rest, rfl, rfl⟩
      · rcases hmore with rfl | hmore
        · cases hargs
          rfl
        · exact absurd hmore.symm (List.append_ne_nil_of_right_ne_nil _ (List.cons_ne_nil _ _))
      · cases hargs with
        | nil =>
          -- the comma is the last token
          rcases hmore with hmore | hmore
          · exact absurd hmore (List.splitOnP_ne_nil _ _)
          · rcases split_eq_nil_cons hmore with ⟨rfl, _⟩ | ⟨_, _, _, hnil⟩
            · rfl
            · exact absurd hnil.symm (List.splitOnP_ne_nil _ _)
        | @cons _ d k _ a args hgives hmerge hargs =>
          obtain ⟨more, hfirst, hends⟩ : ∃ more, split rest = a :: more ∧
              (more = args ∨ more = args ++ [[]]) := by
            rcases hmore with hmore | hmore
            · exact ⟨_, hmore, .inl rfl⟩
            · exact ⟨_, hmore, .inr rfl⟩
          obtain ⟨rest, rfl, hrest⟩ := exists_of_split_eq_cons hfirst
          rw [List.length_cons, List.length_append] at hbound
          have hne : a ++ rest ≠ [] := List.append_ne_nil_of_left_ne_nil hgives.ne_nil _
          rw [readUpTo_comma hne, bind_eq_ok_iff]
          exact ⟨(k, rest), next_eq_ok_iff.2 ⟨a, d, rfl, hgives, hmerge⟩,
            (ih (by omega)).2 ⟨args, ⟨more, hrest, hends⟩, hargs⟩⟩

theorem exists_lists_of_map {l args : List (List Token)}
    (h : Lists (l.map (·.map Token.alone)) args) :
    ∃ plain, Lists l plain ∧ plain.map (·.map Token.alone) = args := by
  obtain ⟨more, hl, hmore⟩ := h
  obtain ⟨first, rest, rfl, hfirst, rfl⟩ := List.map_eq_cons_iff.1 hl
  obtain rfl := List.map_eq_nil_iff.1 hfirst
  rcases hmore with rfl | hmore
  · exact ⟨rest, ⟨rest, rfl, .inl rfl⟩, rfl⟩
  · obtain ⟨plain, last, rfl, rfl, hlast⟩ := List.map_eq_append_iff.1 hmore
    obtain ⟨_, rfl, hnil⟩ := List.map_eq_singleton_iff.1 hlast
    obtain rfl := List.map_eq_nil_iff.1 hnil
    exact ⟨plain, ⟨_, rfl, .inr rfl⟩, rfl⟩

theorem read_eq_ok_iff : read tokens = .ok u ↔
    ∃ args, Lists (pieces tokens) args ∧ Gathers Gives Merges {} args u := by
  rw [read, readUpTo_eq_ok_iff (Nat.lt_succ_self _), pieces]
  constructor
  · rintro ⟨args, ⟨more, hs, hmore⟩, hargs⟩
    refine ⟨args.map (·.map Token.alone), ⟨more.map (·.map Token.alone), by rw [hs]; rfl, ?_⟩, ?_⟩
    · rcases hmore with rfl | rfl
      · exact .inl rfl
      · exact .inr List.map_append
    · simpa only [gathers_map, gives_map_alone] using hargs
  · rintro ⟨args, hlists, hargs⟩
    obtain ⟨plain, hplain, rfl⟩ := exists_lists_of_map hlists
    refine ⟨plain, hplain, ?_⟩
    simpa only [gathers_map, gives_map_alone] using hargs

theorem Lists.rearranged {l l' args : List (List Token)} (h : Rearranged l l')
    (hl : Lists l args) : ∃ args', Lists l' args' ∧ args.Perm args' := by
  obtain ⟨more, rfl, hmore⟩ := hl
  obtain ⟨hperm, hempty⟩ := h
  obtain ⟨first, more', rfl, hfirst, htail⟩ := List.map_eq_cons_iff.1 hempty.symm
  obtain rfl := List.isEmpty_iff.1 hfirst
  rcases hmore with rfl | rfl
  · exact ⟨more', ⟨more', rfl, .inl rfl⟩, hperm.cons_inv⟩
  · rw [List.map_append] at htail
    obtain ⟨args', last, rfl, _, hlast⟩ := List.map_eq_append_iff.1 htail
    obtain ⟨_, rfl, hnil⟩ := List.map_eq_singleton_iff.1 hlast
    obtain rfl := List.isEmpty_iff.1 hnil
    exact ⟨args', ⟨_, rfl, .inr rfl⟩, (List.perm_append_right_iff _).1 hperm.cons_inv⟩

/-- Arguments in another order are read alike. -/
theorem read_rearranged {tokens' : List Token} (h : Rearranged (pieces tokens) (pieces tokens')) :
    read tokens = .ok u ↔ read tokens' = .ok u := by
  have himp {tokens tokens' : List Token} (h : Rearranged (pieces tokens) (pieces tokens'))
      (hread : read tokens = .ok u) : read tokens' = .ok u := by
    obtain ⟨args, hlists, hargs⟩ := read_eq_ok_iff.1 hread
    obtain ⟨args', hlists', hperm⟩ := hlists.rearranged h
    exact read_eq_ok_iff.2 ⟨args', hlists', hargs.perm Merges.swaps hperm⟩
  exact ⟨himp h, himp ⟨h.1.symm, h.2.symm⟩⟩

end JoinArguments

end RecordMapper.Derive
