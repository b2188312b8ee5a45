import RecordMapper.Json.NumberReader
import RecordMapper.Json.Printer
import RecordMapper.Proofs.Number.Numeral
import RecordMapper.Proofs.Number.Shortest
/-!
The numbers in a JSON text are well-formed literals, and the reader takes each of them whole.
-/

namespace RecordMapper.Json

open Numeral

/-- What may stand behind a number: nothing that goes on with it. -/
def Boundary (rest : List Char) : Prop :=
  ∀ c ∈ rest.head?, isDigit c = false ∧ c ≠ '.' ∧ c ≠ 'e' ∧ c ≠ 'E'

theorem boundary_nil : Boundary [] := fun _ h => nomatch h

theorem boundary_cons {c : Char} (h : isDigit c = false ∧ c ≠ '.' ∧ c ≠ 'e' ∧ c ≠ 'E')
    (rest : List Char) : Boundary (c :: rest) := by
  intro d hd
  obtain rfl := Option.some.inj hd
  exact h

section

variable {p : Char → Bool} {body rest : List Char}

theorem takeWhile_append (hb : ∀ c ∈ body, p c = true) (hr : ∀ c ∈ rest.head?, p c = false) :
    (body ++ rest).takeWhile p = body := by
  rw [List.takeWhile_append_of_pos hb]
  cases rest with
  | nil => exact List.append_nil _
  | cons c rest => rw [List.takeWhile_cons_of_neg (by simp [hr c rfl]), List.append_nil]

theorem dropWhile_append (hb : ∀ c ∈ body, p c = true) (hr : ∀ c ∈ rest.head?, p c = false) :
    (body ++ rest).dropWhile p = rest := by
  rw [List.dropWhile_append_of_pos hb]
  cases rest with
  | nil => rfl
  | cons c rest => exact List.dropWhile_cons_of_neg (by simp [hr c rfl])

end

/-- The text of an exponent, with its sign. -/
def exponentChars : Option (Bool × List Char) → List Char
  | none => []
  | some (negative, digits) => 'e' :: (if negative then '-' else '+') :: digits

def exponentValue (e : Bool × List Char) : Int :=
  if e.1 then -(digitsValue 0 e.2 : Int) else digitsValue 0 e.2

def fractionChars : List Char → List Char
  | [] => []
  | digits => '.' :: digits

theorem fractionChars_of_ne_nil {digits : List Char} (h : digits ≠ []) :
    fractionChars digits = '.' :: digits := by
  cases digits with
  | nil => exact absurd rfl h
  | cons d digits => rfl

/-- The parts of a number as they are written, without its sign. -/
structure NumberParts where
  integral : List Char
  fraction : List Char := []
  exponent : Option (Bool × List Char) := none

namespace NumberParts

def chars (n : NumberParts) : List Char :=
  n.integral ++ (fractionChars n.fraction ++ exponentChars n.exponent)

/-- Digits where digits are due, and no zero before others. -/
structure Proper (n : NumberParts) : Prop where
  integral : ∀ c ∈ n.integral, isDigit c = true
  nonempty : n.integral ≠ []
  noLeadingZero : ∀ rest, n.integral = '0' :: rest → rest = []
  fraction : ∀ c ∈ n.fraction, isDigit c = true
  exponent : ∀ e ∈ n.exponent, e.2 ≠ [] ∧ ∀ c ∈ e.2, isDigit c = true

def literal (negative : Bool) (n : NumberParts) : NumberLiteral where
  negative := negative
  integral := n.integral
  fraction := n.fraction
  exponent := n.exponent.map exponentValue

variable {n : NumberParts} {rest : List Char}

theorem head?_exponentChars (hr : Boundary rest) (e : Option (Bool × List Char)) :
    ∀ c ∈ (exponentChars e ++ rest).head?, isDigit c = false ∧ c ≠ '.' := by
  intro c hc
  cases e with
  | none => exact ⟨(hr c hc).1, (hr c hc).2.1⟩
  | some e =>
    obtain rfl : 'e' = c := Option.some.inj hc
    exact ⟨rfl, by decide⟩

theorem head?_fractionChars (digits : List Char)
    (hr : ∀ c ∈ rest.head?, isDigit c = false ∧ c ≠ '.') :
    ∀ c ∈ (fractionChars digits ++ rest).head?, isDigit c = false := by
  intro c hc
  cases digits with
  | nil => exact (hr c hc).1
  | cons d digits =>
    obtain rfl : '.' = c := Option.some.inj hc
    rfl

theorem integralPart?_append (h : n.Proper) (hr : ∀ c ∈ rest.head?, isDigit c = false) :
    integralPart? (n.integral ++ rest) = some (n.integral, rest) := by
  rw [integralPart?, takeWhile_append h.integral hr, dropWhile_append h.integral hr]
  split
  next hnil => exact absurd hnil h.nonempty
  next hzero => cases h.noLeadingZero _ hzero
  next => rfl

theorem fractionPart?_append (h : n.Proper)
    (hr : ∀ c ∈ rest.head?, isDigit c = false ∧ c ≠ '.') :
    fractionPart? (fractionChars n.fraction ++ rest) = some (n.fraction, rest) := by
  cases hf : n.fraction with
  | nil =>
    rw [fractionChars, List.nil_append, fractionPart?]
    rintro text rfl
    exact (hr '.' rfl).2 rfl
  | cons d digits =>
    have hd : ∀ c ∈ d :: digits, isDigit c = true := hf ▸ h.fraction
    have hstop : ∀ c ∈ rest.head?, isDigit c = false := fun c hc => (hr c hc).1
    simp only [fractionChars, List.cons_append, fractionPart?]
    rw [← List.cons_append, takeWhile_append hd hstop, dropWhile_append hd hstop]

variable (h : n.Proper) (hr : Boundary rest)

include h hr

theorem exponentPart?_append : exponentPart? (exponentChars n.exponent ++ rest) =
    some (n.exponent.map exponentValue, rest) := by
  cases he : n.exponent with
  | none =>
    cases rest with
    | nil => rfl
    | cons c rest =>
      obtain ⟨_, _, h₁, h₂⟩ := hr c rfl
      simp [exponentChars, exponentPart?, h₁, h₂]
  | some e =>
    obtain ⟨negative, digits⟩ := e
    obtain ⟨hne, hd⟩ := h.exponent _ he
    have hstop : ∀ c ∈ rest.head?, isDigit c = false := fun c hc => (hr c hc).1
    have hsign : exponentSign ((if negative then '-' else '+') :: (digits ++ rest)) =
        (negative, digits ++ rest) := by cases negative <;> rfl
    have hn : natural? digits = some (digitsValue 0 digits) :=
      if_pos ⟨hne, List.all_eq_true.2 hd⟩
    simp only [exponentChars, List.cons_append, exponentPart?, true_or, if_true, hsign,
      takeWhile_append hd hstop, dropWhile_append hd hstop, hn, Option.map_some, exponentValue]

theorem numberLiteral?_append (negative : Bool) :
    numberLiteral? negative (n.chars ++ rest) = some (n.literal negative, rest) := by
  have htail := head?_exponentChars hr n.exponent
  have hstop := head?_fractionChars n.fraction htail
  rw [numberLiteral?, chars, List.append_assoc, List.append_assoc, integralPart?_append h hstop]
  simp only [Option.bind_eq_bind, Option.bind_some, fractionPart?_append h htail,
    exponentPart?_append h hr]
  rfl

omit hr in
theorem exists_cons : ∃ c text, n.chars = c :: text ∧ isDigit c = true := by
  obtain ⟨c, text, hc⟩ := List.exists_cons_of_ne_nil h.nonempty
  refine ⟨c, text ++ (fractionChars n.fraction ++ exponentChars n.exponent), ?_, ?_⟩
  · rw [chars, hc, List.cons_append]
  · exact h.integral c (hc ▸ List.mem_cons_self)

theorem number?_chars :
    number? (n.chars ++ rest) = (n.literal false).value?.map (·, rest) := by
  obtain ⟨c, text, hc, hd⟩ := exists_cons h
  have hsign (text' : List Char) : n.chars ++ rest ≠ '-' :: text' := by
    intro heq
    rw [hc, List.cons_append, List.cons.injEq] at heq
    rw [heq.1] at hd
    exact absurd hd (by decide)
  rw [number?, numberLiteral?_append h hr, Option.bind_eq_bind, Option.bind_some]
  · exact Option.map_eq_bind.symm
  · exact hsign

theorem number?_minus :
    number? ('-' :: (n.chars ++ rest)) = (n.literal true).value?.map (·, rest) := by
  rw [number?, numberLiteral?_append h hr, Option.bind_eq_bind, Option.bind_some]
  exact Option.map_eq_bind.symm

end NumberParts

/-- The text of a number, with its sign. -/
def IsNumber (text : List Char) : Prop :=
  ∃ n : NumberParts, n.Proper ∧ (text = n.chars ∨ text = '-' :: n.chars)

section

variable {text rest : List Char} (h : IsNumber text)

include h

/-- A number is read alike whatever text follows it. -/
theorem number?_append (hr : Boundary rest) :
    number? (text ++ rest) = (number? text).map fun found => (found.1, rest) := by
  obtain ⟨n, hn, rfl | rfl⟩ := h
  · have halone := NumberParts.number?_chars hn boundary_nil
    rw [List.append_nil] at halone
    rw [NumberParts.number?_chars hn hr, halone, Option.map_map]
    rfl
  · have halone := NumberParts.number?_minus hn boundary_nil
    rw [List.append_nil] at halone
    rw [List.cons_append, NumberParts.number?_minus hn hr, halone, Option.map_map]
    rfl

theorem IsNumber.exists_cons :
    ∃ c rest, text = c :: rest ∧ (isDigit c = true ∨ c = '-') := by
  obtain ⟨n, hn, rfl | rfl⟩ := h
  · obtain ⟨c, rest, hc, hd⟩ := NumberParts.exists_cons hn
    exact ⟨c, rest, hc, .inl hd⟩
  · exact ⟨_, _, rfl, .inr rfl⟩

end

theorem eq_nil_of_head? {digits : List Char} (h : digits.head? ≠ some '0') (rest : List Char)
    (heq : digits = '0' :: rest) : rest = [] :=
  absurd (heq ▸ rfl) h

/-- A whole number. -/
theorem proper_toDigits (n : Nat) : NumberParts.Proper { integral := Nat.toDigits 10 n } where
  integral _ := isDigit_of_mem_toDigits
  nonempty := Nat.toDigits_ne_nil
  noLeadingZero rest h := by
    rcases Nat.eq_zero_or_pos n with rfl | hpos
    · exact (List.cons.inj ((Nat.toDigits_zero 10).symm.trans h)).2.symm
    · exact eq_nil_of_head? (head?_toDigits_ne_zero (Nat.ne_of_gt hpos)) rest h
  fraction _ h := nomatch h
  exponent _ h := nomatch h

theorem isNumber_ofInt (i : Int) : IsNumber (ofInt i).toList := by
  have hchars (n : Nat) :
      (ofNat n).toList = NumberParts.chars { integral := Nat.toDigits 10 n } := by
    rw [ofNat, String.toList_ofList, NumberParts.chars, fractionChars, exponentChars,
      List.append_nil, List.append_nil]
  cases i with
  | ofNat n => exact ⟨_, proper_toDigits n, .inl (hchars n)⟩
  | negSucc n =>
    refine ⟨_, proper_toDigits (n + 1), .inr ?_⟩
    rw [ofInt, String.toList_append, hchars]
    rfl

theorem isDigit_of_mem_zeros {n : Nat} {c : Char} (h : c ∈ FloatLayout.zeros n) :
    isDigit c = true := by
  rw [List.eq_of_mem_replicate h]
  rfl

theorem isDigit_of_mem_append {xs ys : List Char} (hx : ∀ c ∈ xs, isDigit c = true)
    (hy : ∀ c ∈ ys, isDigit c = true) : ∀ c ∈ xs ++ ys, isDigit c = true :=
  fun c hc => (List.mem_append.1 hc).elim (hx c) (hy c)

theorem isDigit_of_mem_singleton {d : Char} (h : isDigit d = true) :
    ∀ c ∈ [d], isDigit c = true := by
  rintro _ (_ | ⟨_, ⟨⟩⟩)
  exact h

section

variable {digits : List Char} (hd : ∀ c ∈ digits, isDigit c = true)

include hd

/-- A number below one: a zero, the point, and zeros before the digits. -/
theorem proper_below (n : Nat) :
    NumberParts.Proper { integral := ['0'], fraction := FloatLayout.zeros n ++ digits } where
  integral := isDigit_of_mem_singleton rfl
  nonempty := List.cons_ne_nil _ _
  noLeadingZero _ h := (List.cons.inj h).2.symm
  fraction := isDigit_of_mem_append (fun _ => isDigit_of_mem_zeros) hd
  exponent := nofun

variable (hne : digits ≠ []) (hz : digits.head? ≠ some '0')

include hne hz

/-- A whole number with the digit that marks a float. -/
theorem proper_whole (n : Nat) :
    NumberParts.Proper { integral := digits ++ FloatLayout.zeros n, fraction := ['0'] } where
  integral := isDigit_of_mem_append hd fun _ => isDigit_of_mem_zeros
  nonempty := List.append_ne_nil_of_left_ne_nil hne _
  noLeadingZero := eq_nil_of_head? <| by
    rw [List.head?_append, Option.or_of_isSome (List.isSome_head?.2 hne)]
    exact hz
  fraction := isDigit_of_mem_singleton rfl
  exponent := nofun

/-- A number with the point among its digits. -/
theorem proper_split {n : Nat} (hn : n ≠ 0) :
    NumberParts.Proper { integral := digits.take n, fraction := digits.drop n } where
  integral c hc := hd c (List.mem_of_mem_take hc)
  nonempty h := (List.take_eq_nil_iff.1 h).elim hn hne
  noLeadingZero := eq_nil_of_head? <| by
    rw [List.head?_take, if_neg hn]
    exact hz
  fraction c hc := hd c (List.mem_of_mem_drop hc)
  exponent := nofun

theorem exists_placePoint (point : Int) : ∃ n : NumberParts, n.Proper ∧
    FloatLayout.placePoint ".0" digits point = n.chars := by
  unfold FloatLayout.placePoint
  split
  next =>
    refine ⟨_, proper_below hd (-point).toNat, ?_⟩
    rw [NumberParts.chars, fractionChars_of_ne_nil (List.append_ne_nil_of_right_ne_nil _ hne)]
    simp [exponentChars]
  next hpos =>
  split
  next =>
    refine ⟨_, proper_whole hd hne hz (point.toNat - digits.length), ?_⟩
    simp [NumberParts.chars, fractionChars, exponentChars]
  next hlong =>
    refine ⟨_, proper_split hd hne hz (show point.toNat ≠ 0 by omega), ?_⟩
    have hdrop : digits.drop point.toNat ≠ [] := by
      rw [Ne, List.drop_eq_nil_iff]
      omega
    rw [NumberParts.chars, fractionChars_of_ne_nil hdrop, exponentChars, List.append_nil]

theorem exists_scientific (x : Int) : ∃ n : NumberParts, n.Proper ∧
    FloatLayout.scientific digits x = n.chars := by
  obtain ⟨d, rest, rfl⟩ := List.exists_cons_of_ne_nil hne
  refine ⟨{ integral := [d], fraction := rest,
            exponent := some (decide (x < 0), Nat.toDigits 10 x.natAbs) }, ?_, ?_⟩
  · constructor
    case integral => exact isDigit_of_mem_singleton (hd d List.mem_cons_self)
    case nonempty => exact List.cons_ne_nil _ _
    case noLeadingZero => exact eq_nil_of_head? hz
    case fraction => exact fun c hc => hd c (.tail _ hc)
    case exponent =>
      intro e he
      obtain rfl := Option.some.inj he
      exact ⟨Nat.toDigits_ne_nil, fun _ => isDigit_of_mem_toDigits⟩
  · cases rest <;> simp [FloatLayout.scientific, NumberParts.chars, fractionChars, exponentChars]

end

theorem exists_magnitude {d : Decimal} (h : d.digits ≠ 0) : ∃ n : NumberParts, n.Proper ∧
    FloatLayout.json.magnitude d = n.chars := by
  have hd : ∀ c ∈ Nat.toDigits 10 d.digits, isDigit c = true := fun _ => isDigit_of_mem_toDigits
  unfold FloatLayout.magnitude
  dsimp only
  split
  · exact exists_placePoint hd Nat.toDigits_ne_nil (head?_toDigits_ne_zero h) _
  · exact exists_scientific hd Nat.toDigits_ne_nil (head?_toDigits_ne_zero h) _

theorem isNumber_finite (f : BinaryFormat) (negative : Bool) (m : Nat) (e : Int) :
    IsNumber (FloatLayout.json.finite f negative m e).toList := by
  have hzero : isDigit '0' = true := rfl
  have hbody : ∃ n : NumberParts, n.Proper ∧
      (if m = 0 then '0' :: FloatLayout.json.integralMark.toList
        else FloatLayout.json.magnitude (f.shortest FloatLayout.json.tie m e)) = n.chars := by
    split
    next => exact ⟨_, proper_below (isDigit_of_mem_singleton hzero) 0, rfl⟩
    next h => exact exists_magnitude (f.shortest_digits_ne_zero _ e h)
  obtain ⟨n, hn, hchars⟩ := hbody
  refine ⟨n, hn, ?_⟩
  rw [FloatLayout.finite, hchars]
  cases negative with
  | false => exact .inl String.toList_ofList
  | true => exact .inr String.toList_ofList

theorem isNumber_jsonText {x : Binary64} (h : x.datum.isFinite = true) :
    IsNumber x.jsonText.toList := by
  unfold Binary64.jsonText
  cases hx : x.datum with
  | finite negative m e => exact isNumber_finite _ negative m e
  | infinite | nan =>
    rw [hx] at h
    cases h

theorem jsonText_of_not_finite {x : Binary64} (h : x.datum.isFinite = false) :
    x.jsonText = "null" := by
  unfold Binary64.jsonText
  cases hx : x.datum with
  | finite negative m e =>
    rw [hx] at h
    cases h
  | infinite | nan => rfl

end RecordMapper.Json
