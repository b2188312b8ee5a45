import Mathlib.Algebra.Group.Nat.Defs
import RecordMapper.Derive.Expansion
/-!
A text that is written as a literal is read as itself, whatever characters it holds.
-/

namespace RecordMapper.Derive

open Text (codePoint escapeAll escapeChar escapeNul quote)

namespace Literal

/-- A part of what stands in quotes that is read as one character. -/
structure ReadAs (c : Char) (text : List Char) : Prop where
  unit : ∀ rest, unit? characters (text ++ rest) = some ([c], rest)
  head : text.head? ≠ some '"'
  nonempty : text ≠ []

theorem readAs_escape {c d : Char} {text : List Char} (hn : d ≠ '\n') (hr : d ≠ '\r')
    (h : ∀ rest, escape? characters (d :: (text ++ rest)) = some (c, rest)) :
    ReadAs c ('\\' :: d :: text) where
  unit rest := by
    rw [List.cons_append, List.cons_append, unit?.eq_6, h rest]
    · rfl
    · intro _ he
      exact hn (List.cons.inj he).1
    · intro _ he
      exact hr (List.cons.inj he).1
  head := by simp
  nonempty := List.cons_ne_nil _ _

theorem readAs_plain {c : Char} (hquote : c ≠ '"') (hslash : c ≠ '\\') (hreturn : c ≠ '\r') :
    ReadAs c [c] where
  unit rest := by
    rw [List.cons_append, List.nil_append,
      unit?.eq_7 characters c rest (fun _ h _ => hreturn h) hreturn (fun _ h _ => hslash h)
        (fun _ h _ => hslash h) hslash]
    rfl
  head := by simpa using hquote
  nonempty := List.cons_ne_nil _ _

/-! ### Code points -/

theorem hexDigit?_digitChar : ∀ d < 16, Nat.digitChar d ≠ '\x7d' ∧ Nat.digitChar d ≠ '_' ∧
    Numeral.hexDigit? (Nat.digitChar d) = some d := by
  decide

theorem longEscape?_digitChar {d value count : Nat} (hd : d < 16) (hc : count < 6)
    (rest : List Char) :
    longEscape? value count (Nat.digitChar d :: rest) =
      longEscape? (value * 16 + d) (count + 1) rest := by
  obtain ⟨hbrace, hscore, hdigit⟩ := hexDigit?_digitChar d hd
  rw [longEscape?.eq_4 _ _ _ _ hbrace hscore, hdigit]
  exact if_pos hc

/-- Digits are read as the number that they were made of. -/
theorem longEscape?_toDigits {n value count : Nat}
    (h : count + (Nat.toDigits 16 n).length ≤ 6) (rest : List Char) :
    longEscape? value count (Nat.toDigits 16 n ++ rest) =
      longEscape? (value * 16 ^ (Nat.toDigits 16 n).length + n)
        (count + (Nat.toDigits 16 n).length) rest := by
  induction n using Nat.strongRecOn generalizing rest with
  | ind n ih =>
    rcases Nat.lt_or_ge n 16 with hlt | hge
    · rw [Nat.toDigits_of_lt_base hlt] at h ⊢
      rw [List.singleton_append, longEscape?_digitChar hlt (Nat.lt_of_succ_le h)]
      rfl
    · have hdigits := Nat.toDigits_of_base_le (by decide) hge
      rw [hdigits, List.length_append, List.length_singleton] at h ⊢
      have hvalue : (value * 16 ^ (Nat.toDigits 16 (n / 16)).length + n / 16) * 16 + n % 16 =
          value * 16 ^ ((Nat.toDigits 16 (n / 16)).length + 1) + n := by
        rw [Nat.pow_succ, Nat.add_mul, Nat.mul_assoc, Nat.add_assoc, Nat.div_add_mod']
      rw [List.append_assoc, ih (n / 16) (by omega) (by omega), List.singleton_append,
        longEscape?_digitChar (Nat.mod_lt _ (by decide)) (by omega), hvalue, Nat.add_assoc]

theorem escape?_codePoint (c : Char) (rest : List Char) :
    escape? characters ('u' :: '\x7b' :: (codePoint c ++ '\x7d' :: rest)) = some (c, rest) := by
  have hlt : c.toNat < 16 ^ 6 := by
    rcases c.valid with h | ⟨_, h⟩
    · exact Nat.lt_trans h (by decide)
    · exact Nat.lt_trans h (by decide)
  have hlength : (codePoint c).length ≤ 6 :=
    (Nat.length_toDigits_le_iff (by decide) (by decide)).2 hlt
  have hpos : 0 < 0 + (codePoint c).length := by
    rw [Nat.zero_add]
    exact List.length_pos_iff.2 Nat.toDigits_ne_nil
  have hread : longEscape? 0 0 (codePoint c ++ '\x7d' :: rest) = some (c.toNat, rest) := by
    rw [codePoint] at hlength hpos ⊢
    rw [longEscape?_toDigits (by omega), Nat.zero_mul, Nat.zero_add, longEscape?.eq_2]
    exact if_pos ⟨hpos, c.valid⟩
  rw [escape?.eq_2, hread]
  exact congrArg (fun d => some (d, rest)) c.ofNat_toNat

/-! ### Quoted texts -/

theorem readAs_escapeChar (c : Char) : ReadAs c (escapeChar c) := by
  have hshort {d e : Char} (he : c = e) (hn : d ≠ '\n') (hr : d ≠ '\r')
      (h : ∀ rest, escape? characters (d :: rest) = some (e, rest)) : ReadAs c ['\\', d] := by
    subst he
    exact readAs_escape hn hr h
  unfold escapeChar
  split
  next h => exact hshort h (by decide) (by decide) fun _ => rfl
  split
  next h => exact hshort h (by decide) (by decide) fun _ => rfl
  next hreturn =>
  split
  next h => exact hshort h (by decide) (by decide) fun _ => rfl
  split
  next h => exact hshort h (by decide) (by decide) fun _ => rfl
  next hquote =>
  split
  next h => exact hshort h (by decide) (by decide) fun _ => rfl
  next hslash =>
  split
  next => exact readAs_plain hquote hslash hreturn
  next =>
    apply readAs_escape (by decide) (by decide)
    intro rest
    simpa using escape?_codePoint c rest

theorem readAs_escapeNul {c : Char} (h : c.toNat = 0) (rest : List Char) :
    ReadAs c (escapeNul rest) := by
  have hc : c = Char.ofNat 0 := by rw [← h, Char.ofNat_toNat]
  subst hc
  unfold escapeNul
  split
  · split
    · exact readAs_escape (by decide) (by decide) fun _ => rfl
    · exact readAs_escape (by decide) (by decide) fun _ => rfl
  · exact readAs_escape (by decide) (by decide) fun _ => rfl

theorem quoted?_append {c : Char} {text : List Char} (h : ReadAs c text) (rest : List Char) :
    quoted? characters (text ++ rest) =
      (quoted? characters rest).map fun (values, rest) => (c :: values, rest) := by
  have hhead : (text ++ rest).head? ≠ some '"' := by
    rw [List.head?_append, Option.or_of_isSome (List.isSome_head?.2 h.nonempty)]
    exact h.head
  have hlength : rest.length < (text ++ rest).length := by
    rw [List.length_append]
    exact Nat.lt_add_of_pos_left (List.length_pos_iff.2 h.nonempty)
  rw [quoted?, if_neg hhead, h.unit]
  exact if_pos hlength

theorem quoted?_escapeAll (cs rest : List Char) :
    quoted? characters (escapeAll cs ++ '"' :: rest) = some (cs, rest) := by
  induction cs with
  | nil =>
    rw [quoted?]
    rfl
  | cons c cs ih =>
    have hread : ReadAs c (if c.toNat = 0 then escapeNul cs else escapeChar c) := by
      split
      next h => exact readAs_escapeNul h cs
      next => exact readAs_escapeChar c
    rw [escapeAll, List.append_assoc, quoted?_append hread, ih, Option.map_some]

end Literal

/-- A quoted text stands for what was quoted. -/
@[simp] theorem TextLiteral.value_quote (s : String) : TextLiteral.value ⟨quote s⟩ = s := by
  have htext : Literal.text? (quote s).toList = some (s.toList, []) := by
    rw [quote, String.toList_ofList]
    exact Literal.quoted?_escapeAll s.toList []
  rw [value, htext]
  exact s.ofList_toList

end RecordMapper.Derive
