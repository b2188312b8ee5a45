import Mathlib.Data.Option.Basic
import RecordMapper.Derive.Expansion
/-!
The name of an item is a word of the program text, and no word of a program text is blank.
-/

namespace RecordMapper

namespace Text

/-- Classes of characters have nothing in common when their ranges lie apart. -/
theorem within_eq_false {ranges others : List (Nat × Nat)} {c : Char}
    (h : ∀ a ∈ ranges, ∀ b ∈ others, a.2 < b.1 ∨ b.2 < a.1) (hc : within ranges c = true) :
    within others c = false := by
  rw [Bool.eq_false_iff]
  intro hother
  simp only [within, List.any_eq_true, Bool.and_eq_true, decide_eq_true_eq] at hc hother
  obtain ⟨a, ha, hal, har⟩ := hc
  obtain ⟨b, hb, hbl, hbr⟩ := hother
  have := h a ha b hb
  omega

theorem within_of_isAlpha {c : Char} (h : c.isAlpha = true) :
    within [(0x41, 0x5a), (0x61, 0x7a)] c = true := by
  simp only [within, List.any_cons, List.any_nil, Bool.or_false, Bool.or_eq_true, Bool.and_eq_true,
    decide_eq_true_eq]
  rcases Bool.or_eq_true_iff.1 h with h | h
  · obtain ⟨hlo, hhi⟩ := of_decide_eq_true h
    exact .inl ⟨UInt32.le_iff_toNat_le.1 hlo, UInt32.le_iff_toNat_le.1 hhi⟩
  · obtain ⟨hlo, hhi⟩ := Bool.and_eq_true_iff.1 h
    exact .inr ⟨UInt32.le_iff_toNat_le.1 (of_decide_eq_true hlo),
      UInt32.le_iff_toNat_le.1 (of_decide_eq_true hhi)⟩

theorem isBlank_of_startsIdentifier {c : Char} (h : startsIdentifier c = true) :
    isBlank c = false := by
  simp only [startsIdentifier, Bool.or_eq_true, Bool.and_eq_true] at h
  rcases h with (h | h) | ⟨_, h⟩
  · exact within_eq_false (by decide) (within_of_isAlpha h)
  · rw [eq_of_beq h]
    decide
  · exact within_eq_false (by decide +kernel) h

theorem isBlankText_cons {c : Char} (hc : isBlank c = false) (rest : List Char) :
    isBlankText (String.ofList (c :: rest)) = false := by
  rw [isBlankText, String.toList_ofList, List.all_cons, hc, Bool.false_and]

theorem isBlankText_identifier {text name rest : List Char}
    (h : identifier? text = some (name, rest)) : isBlankText (String.ofList name) = false := by
  cases text with
  | nil => cases h
  | cons c text =>
    obtain ⟨hc, h⟩ := Option.ite_none_right_eq_some.1 h
    cases h
    exact isBlankText_cons (isBlank_of_startsIdentifier hc) _

end Text

namespace Derive

open Text

/-- Words that are not blank, and whatever is no word. -/
def Token.Named : Token → Prop
  | .word text => isBlankText text = false
  | .mark .. | .literal _ | .group .. => True

namespace Lexeme

def Named : Lexeme → Prop
  | .leaf token => token.Named
  | .opening _ | .closing _ => True

theorem named_word {text rest : List Char} {name : String} (h : word? text = some (name, rest)) :
    isBlankText name = false := by
  unfold word? at h
  split at h
  next =>
    simp only [Option.bind_eq_bind, Option.bind_eq_some_iff, Option.ite_none_left_eq_some] at h
    obtain ⟨_, _, _, h⟩ := h
    cases h
    rw [isBlankText, String.toList_append, List.all_append]
    rfl
  next =>
    obtain ⟨_, hi, h⟩ := Option.map_eq_some_iff.1 h
    cases h
    exact isBlankText_identifier hi

theorem named_mark {text rest : List Char} {token : Token} (h : mark? text = some (token, rest)) :
    token.Named := by
  unfold mark? at h
  split at h
  next => cases h
  next =>
    obtain ⟨_, h⟩ := Option.ite_none_left_eq_some.1 h
    split at h
    next =>
      obtain ⟨_, h⟩ := Option.ite_none_right_eq_some.1 h
      cases h
      trivial
    next =>
      cases h
      trivial

theorem named_token {text rest : List Char} {token : Token} (h : token? text = some (token, rest)) :
    token.Named := by
  rw [token?, Option.orElse_eq_some, Option.orElse_eq_some] at h
  rcases h with h | ⟨_, h | ⟨_, h⟩⟩
  · obtain ⟨_, _, h⟩ := Option.map_eq_some_iff.1 h
    cases h
    trivial
  · exact named_mark h
  · obtain ⟨_, h⟩ := Option.ite_none_left_eq_some.1 h
    obtain ⟨_, hw, h⟩ := Option.map_eq_some_iff.1 h
    cases h
    exact named_word hw

theorem named_documentation {inner : Bool} {body : List Char} {found : List Lexeme}
    (h : documentation? inner body = some found) : ∀ l ∈ found, l.Named := by
  have hdoc : isBlankText "doc" = false := by decide
  obtain ⟨_, h⟩ := Option.ite_none_left_eq_some.1 h
  cases h
  cases inner <;> simp [Named, Token.Named, hdoc]

theorem named_step {text rest : List Char} {found : List Lexeme}
    (h : step? text = some (found, rest)) : ∀ l ∈ found, l.Named := by
  have hnil : ∀ l ∈ ([] : List Lexeme), l.Named := List.forall_mem_nil _
  unfold step? at h
  split at h
  -- documentation, which stands for an attribute
  case h_3 | h_4 =>
    obtain ⟨_, hd, h⟩ := Option.map_eq_some_iff.1 h
    cases h
    exact named_documentation hd
  case h_8 | h_9 =>
    simp only [Option.bind_eq_bind, Option.bind_eq_some_iff] at h
    obtain ⟨_, _, _, hd, h⟩ := h
    cases h
    exact named_documentation hd
  -- other comments, which stand for nothing
  case h_2 | h_5 | h_6 =>
    cases h
    exact hnil
  case h_7 | h_10 =>
    obtain ⟨_, _, h⟩ := Option.map_eq_some_iff.1 h
    cases h
    exact hnil
  case h_1 => cases h
  case h_11 =>
    split at h
    all_goals
      cases h
      exact List.forall_mem_singleton.2 trivial
  case h_12 | h_13 | h_14 | h_15 | h_16 =>
    cases h
    exact List.forall_mem_singleton.2 trivial
  case h_17 =>
    split at h
    next =>
      cases h
      exact hnil
    next =>
      obtain ⟨_, ht, h⟩ := Option.map_eq_some_iff.1 h
      cases h
      exact List.forall_mem_singleton.2 (named_token ht)

theorem named_ofText {text : List Char} {found : List Lexeme} (h : ofText? text = some found) :
    ∀ l ∈ found, l.Named := by
  fun_induction ofText? text generalizing found with
  | case1 =>
    cases h
    exact List.forall_mem_nil _
  | case2 => cases h
  | case3 text _ first rest hstep _ ih =>
    obtain ⟨others, ho, h⟩ := Option.map_eq_some_iff.1 h
    cases h
    exact List.forall_mem_append.2 ⟨named_step hstep, ih ho⟩
  | case4 => cases h

end Lexeme

/-- Words outside groups are words of the lexemes. -/
theorem named_nest {opened : List (Delimiter × List Token)} {done : List Token}
    {lexemes : List Lexeme} (hopened : ∀ o ∈ opened, ∀ t ∈ o.2, t.Named)
    (hdone : ∀ t ∈ done, t.Named) (hl : ∀ l ∈ lexemes, l.Named) {tokens : List Token}
    (h : nest? opened done lexemes = some tokens) : ∀ t ∈ tokens, t.Named := by
  induction lexemes generalizing opened done with
  | nil =>
    obtain ⟨_, h⟩ := Option.ite_none_right_eq_some.1 h
    cases h
    exact fun t ht => hdone t (List.mem_reverse.1 ht)
  | cons l lexemes ih =>
    obtain ⟨hfirst, hrest⟩ := List.forall_mem_cons.1 hl
    cases l with
    | leaf token => exact ih hopened (List.forall_mem_cons.2 ⟨hfirst, hdone⟩) hrest h
    | opening delimiter =>
      exact ih (List.forall_mem_cons.2 ⟨hdone, hopened⟩) (List.forall_mem_nil _) hrest h
    | closing delimiter =>
      cases opened with
      | nil => cases h
      | cons o opened =>
        obtain ⟨hbefore, hopened⟩ := List.forall_mem_cons.1 hopened
        obtain ⟨_, h⟩ := Option.ite_none_right_eq_some.1 h
        have hgroup : (Token.group delimiter done.reverse).Named := trivial
        exact ih hopened (List.forall_mem_cons.2 ⟨hgroup, hbefore⟩) hrest h

theorem named_tokens {source : String} {tokens : List Token} (h : tokens? source = some tokens) :
    ∀ t ∈ tokens, t.Named := by
  simp only [tokens?, Option.bind_eq_bind, Option.bind_eq_some_iff] at h
  obtain ⟨lexemes, hl, h⟩ := h
  exact named_nest (List.forall_mem_nil _) (List.forall_mem_nil _) (Lexeme.named_ofText hl) h

namespace Reader

variable {α β σ : Type}

/-- What the reader leaves is the end of the tokens. -/
def LeavesSuffix (reader : Reader α) : Prop :=
  ∀ tokens found, reader tokens = some found → found.rest <:+ tokens

theorem bind_eq_some {reader : Reader α} {next : α → Reader β} {tokens : List Token}
    {found : Reading β} (h : (reader >>= next) tokens = some found) :
    ∃ first second, reader tokens = some first ∧ next first.value first.rest = some second ∧
      found = ⟨second.value, first.written ++ second.written, second.rest⟩ := by
  rw [bind_apply, Option.bind_eq_some_iff] at h
  obtain ⟨first, hfirst, h⟩ := h
  obtain ⟨second, hsecond, h⟩ := Option.map_eq_some_iff.1 h
  exact ⟨first, second, hfirst, hsecond, h.symm⟩

theorem leavesSuffix_pure (value : α) : LeavesSuffix (pure value : Reader α) := by
  intro tokens found h
  cases h
  exact List.suffix_refl _

theorem leavesSuffix_fail : LeavesSuffix (fail : Reader α) := fun _ _ h => nomatch h

theorem leavesSuffix_look : LeavesSuffix look := by
  intro tokens found h
  cases h
  exact List.suffix_refl _

theorem leavesSuffix_take (size : Nat) : LeavesSuffix (take size) := by
  intro tokens found h
  obtain ⟨_, h⟩ := Option.ite_none_right_eq_some.1 h
  cases h
  exact List.drop_suffix ..

theorem LeavesSuffix.bind {reader : Reader α} {next : α → Reader β} (hr : reader.LeavesSuffix)
    (hn : ∀ value, (next value).LeavesSuffix) : LeavesSuffix (reader >>= next) := by
  intro tokens found h
  obtain ⟨_, _, hfirst, hsecond, rfl⟩ := bind_eq_some h
  exact (hn _ _ _ hsecond).trans (hr _ _ hfirst)

theorem LeavesSuffix.ite {p : Prop} [Decidable p] {a b : Reader α} (ha : a.LeavesSuffix)
    (hb : b.LeavesSuffix) : LeavesSuffix (if p then a else b) := by
  split
  · exact ha
  · exact hb

theorem LeavesSuffix.iterate {step : σ → Reader (σ × Bool)} (h : ∀ state, (step state).LeavesSuffix)
    (state : σ) : (iterate step state).LeavesSuffix := by
  have hup (bound : Nat) : ∀ state, (iterateUpTo step bound state).LeavesSuffix := by
    induction bound with
    | zero => exact fun _ => leavesSuffix_fail
    | succ bound ih =>
      exact fun state => (h state).bind fun _ => .ite (ih _) (leavesSuffix_pure _)
  exact leavesSuffix_look.bind fun tokens => hup _ state

theorem leavesSuffix_inside (delimiter : Delimiter) (reader : Reader α) :
    LeavesSuffix (inside delimiter reader) := by
  intro tokens found h
  unfold inside at h
  split at h
  next =>
    obtain ⟨_, h⟩ := Option.ite_none_right_eq_some.1 h
    split at h
    next =>
      cases h
      exact List.suffix_cons ..
    next => cases h
  next => cases h

theorem leavesSuffix_optionalMark (text : String) : LeavesSuffix (optionalMark text) :=
  leavesSuffix_look.bind fun _ =>
    .ite ((leavesSuffix_take _).bind fun _ => leavesSuffix_pure _) (leavesSuffix_pure _)

theorem leavesSuffix_optionalWord (text : String) : LeavesSuffix (optionalWord text) :=
  leavesSuffix_look.bind fun _ =>
    .ite ((leavesSuffix_take _).bind fun _ => leavesSuffix_pure _) (leavesSuffix_pure _)

theorem leavesSuffix_word (text : String) : LeavesSuffix (word text) :=
  leavesSuffix_look.bind fun _ => .ite (leavesSuffix_take _) leavesSuffix_fail

theorem LeavesSuffix.noted {reader : Reader α} (h : reader.LeavesSuffix) :
    LeavesSuffix (noted reader) := by
  intro tokens found hf
  obtain ⟨first, hfirst, rfl⟩ := Option.map_eq_some_iff.1 hf
  exact h _ _ hfirst

/-- A name is the word at the front. -/
theorem name_eq_some {tokens : List Token} {found : Reading Unit} (h : name tokens = some found) :
    ∃ text, found.written = [.word text] ∧ .word text ∈ tokens := by
  obtain ⟨_, second, hlook, htake, rfl⟩ := bind_eq_some h
  cases hlook
  split at htake
  next hname =>
    cases tokens with
    | nil => cases hname
    | cons token rest =>
      cases token with
      | word text =>
        cases htake
        exact ⟨text, rfl, List.mem_cons_self⟩
      | mark | literal | group => cases hname
  next => cases htake

end Reader

namespace Grammar

open Reader

theorem leavesSuffix_attributes (c : Rules) : LeavesSuffix (attributes c) :=
  .iterate (fun _ => (leavesSuffix_optionalMark _).bind fun _ =>
    .ite (leavesSuffix_pure _) ((leavesSuffix_inside _ _).bind fun _ => leavesSuffix_pure _)) _

theorem leavesSuffix_visibility : LeavesSuffix visibility := by
  refine (leavesSuffix_optionalWord _).bind fun _ => .ite (leavesSuffix_pure _) ?_
  refine leavesSuffix_look.bind fun tokens => ?_
  split
  · exact (leavesSuffix_inside _ _).bind fun _ => leavesSuffix_pure _
  · exact .ite ((leavesSuffix_take _).bind fun _ => leavesSuffix_pure _) (leavesSuffix_pure _)
  · exact leavesSuffix_pure _

/-- The name of a struct is one of the tokens. -/
theorem structItem_name {c : Rules} {attributes : List Attribute} {tokens : List Token}
    {found : Reading Item} (h : structItem c attributes tokens = some found) :
    .word found.value.name ∈ tokens := by
  obtain ⟨⟨⟨_, _⟩, _, _⟩, _, hvisibility, h₁, rfl⟩ := bind_eq_some h
  obtain ⟨_, _, hstruct, h₂, rfl⟩ := bind_eq_some h₁
  obtain ⟨⟨⟨_, ident⟩, _, _⟩, _, hname, h₃, rfl⟩ := bind_eq_some h₂
  obtain ⟨_, _, _, h₄, rfl⟩ := bind_eq_some h₃
  obtain ⟨_, _, _, h₅, rfl⟩ := bind_eq_some h₄
  cases h₅
  obtain ⟨_, hword, he⟩ := Option.map_eq_some_iff.1 hname
  cases he
  obtain ⟨text, hwritten, hmem⟩ := name_eq_some hword
  have hrest := (leavesSuffix_word _ _ _ hstruct).trans
    (leavesSuffix_visibility.noted _ _ hvisibility)
  simp only [hwritten, soleWord, Option.getD_some]
  exact hrest.subset hmem

end Grammar

/-- The name of an item is one of its tokens. -/
theorem Item.name_mem {tokens : List Token} {item : Item} (h : Item.ofTokens? tokens = some item) :
    .word item.name ∈ tokens := by
  unfold Item.ofTokens? at h
  split at h
  next hread =>
    cases h
    obtain ⟨_, _, hattributes, hstruct, he⟩ := Reader.bind_eq_some hread
    obtain ⟨rfl, _, _⟩ := Reading.mk.inj he
    exact (Grammar.leavesSuffix_attributes _ _ _ hattributes).subset
      (Grammar.structItem_name hstruct)
  next => cases h

end Derive

end RecordMapper
