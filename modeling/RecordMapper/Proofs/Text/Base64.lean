import RecordMapper.Text.Base64
import RecordMapper.Text.Blank
/-!
Decoding a text in base64 gives back the bytes that were encoded, and a text that is decoded is the
one that its bytes are encoded as.
-/

namespace RecordMapper.Base64

theorem sextet?_symbol {n : Nat} (h : n < 64) : sextet? (symbol n) = some n := by
  have hall : ∀ n : Fin 64, sextet? (symbol n) = some n.val := by decide +kernel
  exact hall ⟨n, h⟩

theorem symbol_ne_padding {n : Nat} (h : n < 64) : symbol n ≠ '=' := by
  intro he
  have hs := sextet?_symbol h
  rw [he] at hs
  cases hs

theorem ofNat_eq {n : Nat} {a : UInt8} (h : n = a.toNat) : UInt8.ofNat n = a := by
  rw [h, UInt8.ofNat_toNat]

variable (a b c : UInt8)

/-- The four sextets of three bytes. -/
theorem sextets_lt : a.toNat / 4 < 64 ∧ a.toNat % 4 * 16 + b.toNat / 16 < 64 ∧
    b.toNat % 16 * 4 + c.toNat / 64 < 64 ∧ c.toNat % 64 < 64 := by
  have ha := a.toNat_lt
  have hb := b.toNat_lt
  have hc := c.toNat_lt
  omega

theorem bytes_of_sextets :
    UInt8.ofNat (a.toNat / 4 * 4 + (a.toNat % 4 * 16 + b.toNat / 16) / 16) = a ∧
      UInt8.ofNat ((a.toNat % 4 * 16 + b.toNat / 16) % 16 * 16 +
        (b.toNat % 16 * 4 + c.toNat / 64) / 4) = b ∧
      UInt8.ofNat ((b.toNat % 16 * 4 + c.toNat / 64) % 4 * 64 + c.toNat % 64) = c := by
  have ha := a.toNat_lt
  have hb := b.toNat_lt
  have hc := c.toNat_lt
  exact ⟨ofNat_eq (by omega), ofNat_eq (by omega), ofNat_eq (by omega)⟩

theorem decodeLast?_one :
    decodeLast? (symbol (a.toNat / 4)) (symbol (a.toNat % 4 * 16)) '=' '=' = some [a] := by
  obtain ⟨hx, hy, -, -⟩ := sextets_lt a 0 0
  obtain ⟨ha, -, -⟩ := bytes_of_sextets a 0 0
  have hzero : a.toNat % 4 * 16 % 16 = 0 := Nat.mul_mod_left ..
  simp only [UInt8.toNat_zero, Nat.zero_div, Nat.add_zero] at hy ha
  simp only [decodeLast?, sextet?_symbol hx, sextet?_symbol hy, Option.bind_eq_bind,
    Option.bind_some, hzero, and_self, if_true, ha]

theorem decodeLast?_two :
    decodeLast? (symbol (a.toNat / 4)) (symbol (a.toNat % 4 * 16 + b.toNat / 16))
      (symbol (b.toNat % 16 * 4)) '=' = some [a, b] := by
  obtain ⟨hx, hy, hz, -⟩ := sextets_lt a b 0
  obtain ⟨ha, hb, -⟩ := bytes_of_sextets a b 0
  have hzero : b.toNat % 16 * 4 % 4 = 0 := Nat.mul_mod_left ..
  simp only [UInt8.toNat_zero, Nat.zero_div, Nat.add_zero] at hz hb
  simp only [decodeLast?, sextet?_symbol hx, sextet?_symbol hy, sextet?_symbol hz,
    Option.bind_eq_bind, Option.bind_some, symbol_ne_padding hz, hzero, if_false, if_true, ha, hb]

theorem decodeGroup?_three :
    decodeGroup? (symbol (a.toNat / 4)) (symbol (a.toNat % 4 * 16 + b.toNat / 16))
      (symbol (b.toNat % 16 * 4 + c.toNat / 64)) (symbol (c.toNat % 64)) = some [a, b, c] := by
  obtain ⟨hx, hy, hz, hw⟩ := sextets_lt a b c
  obtain ⟨ha, hb, hc⟩ := bytes_of_sextets a b c
  simp only [decodeGroup?, sextet?_symbol hx, sextet?_symbol hy, sextet?_symbol hz,
    sextet?_symbol hw, Option.bind_eq_bind, Option.bind_some, ha, hb, hc]

variable {a b c} {s t u v : Char}

/-- A last group without padding is a group like any other. -/
theorem decodeLast?_eq_decodeGroup? (hu : u ≠ '=') (hv : v ≠ '=') :
    decodeLast? s t u v = decodeGroup? s t u v := by
  simp only [decodeLast?, decodeGroup?, hu, hv, if_false]

theorem decodeList?_encodeList (data : List UInt8) : decodeList? (encodeList data) = some data := by
  induction data using encodeList.induct with
  | case1 => rfl
  | case2 a => exact decodeLast?_one a
  | case3 a b => exact decodeLast?_two a b
  | case4 a b c rest ih =>
    obtain ⟨-, -, hz, hw⟩ := sextets_lt a b c
    rw [encodeList]
    cases he : encodeList rest with
    | nil =>
      rw [he] at ih
      rw [decodeList?, decodeLast?_eq_decodeGroup? (symbol_ne_padding hz) (symbol_ne_padding hw),
        decodeGroup?_three]
      cases ih
      rfl
    | cons s t =>
      rw [he] at ih
      rw [decodeList?, decodeGroup?_three, ih]
      · rfl
      · exact List.cons_ne_nil s t

theorem decode?_encode (data : List UInt8) : decode? (encode data) = some data := by
  rw [decode?, encode, String.toList_ofList, decodeList?_encodeList]

theorem symbol_of_sextet? {c : Char} {n : Nat} (h : sextet? c = some n) :
    n < 64 ∧ symbol n = c := by
  have hrange {low high : Char} (h : low ≤ c ∧ c ≤ high) :
      low.toNat ≤ c.toNat ∧ c.toNat ≤ high.toNat := h
  have hchar {k : Nat} (h : k = c.toNat) : Char.ofNat k = c := by
    rw [h, Char.ofNat_toNat]
  rw [sextet?] at h
  split at h
  next hc =>
    obtain ⟨hlow, hhigh⟩ : 65 ≤ c.toNat ∧ c.toNat ≤ 90 := hrange hc
    cases h
    refine ⟨by omega, ?_⟩
    rw [symbol, if_pos (by omega), hchar (by omega)]
  split at h
  next hc =>
    obtain ⟨hlow, hhigh⟩ : 97 ≤ c.toNat ∧ c.toNat ≤ 122 := hrange hc
    cases h
    refine ⟨by omega, ?_⟩
    rw [symbol, if_neg (by omega), if_pos (by omega), hchar (by omega)]
  split at h
  next hc =>
    obtain ⟨hlow, hhigh⟩ : 48 ≤ c.toNat ∧ c.toNat ≤ 57 := hrange hc
    cases h
    refine ⟨by omega, ?_⟩
    rw [symbol, if_neg (by omega), if_neg (by omega), if_pos (by omega), hchar (by omega)]
  split at h
  next hc =>
    cases h
    exact ⟨by decide, hc.symm⟩
  split at h
  next hc =>
    cases h
    exact ⟨by decide, hc.symm⟩
  next => cases h

theorem toNat_byte {n : Nat} (h : n < 256) : (UInt8.ofNat n).toNat = n :=
  UInt8.toNat_ofNat_of_lt' h

/-- The sextets of the three bytes that four sextets make up. -/
theorem sextets_of_bytes {x y z w : Nat} (hx : x < 64) (hy : y < 64) (hz : z < 64) (hw : w < 64) :
    let a := UInt8.ofNat (x * 4 + y / 16)
    let b := UInt8.ofNat (y % 16 * 16 + z / 4)
    let c := UInt8.ofNat (z % 4 * 64 + w)
    a.toNat / 4 = x ∧ a.toNat % 4 * 16 + b.toNat / 16 = y ∧
      b.toNat % 16 * 4 + c.toNat / 64 = z ∧ c.toNat % 64 = w := by
  intro a b c
  have ha : a.toNat = x * 4 + y / 16 := toNat_byte (by omega)
  have hb : b.toNat = y % 16 * 16 + z / 4 := toNat_byte (by omega)
  have hc : c.toNat = z % 4 * 64 + w := toNat_byte (by omega)
  omega

section Canonical

variable {data rest : List UInt8} {text : List Char}

theorem encodeList_of_decodeGroup? (h : decodeGroup? s t u v = some data) :
    encodeList (data ++ rest) = s :: t :: u :: v :: encodeList rest := by
  simp only [decodeGroup?, Option.bind_eq_bind, Option.bind_eq_some_iff, Option.some.injEq] at h
  obtain ⟨x, hs, y, ht, z, hu, w, hv, rfl⟩ := h
  obtain ⟨hx, rfl⟩ := symbol_of_sextet? hs
  obtain ⟨hy, rfl⟩ := symbol_of_sextet? ht
  obtain ⟨hz, rfl⟩ := symbol_of_sextet? hu
  obtain ⟨hw, rfl⟩ := symbol_of_sextet? hv
  obtain ⟨hx', hy', hz', hw'⟩ := sextets_of_bytes hx hy hz hw
  simp only [List.cons_append, List.nil_append, encodeList, hx', hy', hz', hw']

/-- A last group of one byte or two, whose padding leaves no bits over. -/
theorem encodeList_of_padded (h : decodeLast? s t u '=' = some data) :
    encodeList data = [s, t, u, '='] := by
  simp only [decodeLast?, Option.bind_eq_bind, Option.bind_eq_some_iff, true_and, if_true] at h
  obtain ⟨x, hs, y, ht, h⟩ := h
  obtain ⟨hx, rfl⟩ := symbol_of_sextet? hs
  obtain ⟨hy, rfl⟩ := symbol_of_sextet? ht
  have ha : (UInt8.ofNat (x * 4 + y / 16)).toNat = x * 4 + y / 16 := toNat_byte (by omega)
  have hx' : (x * 4 + y / 16) / 4 = x := by omega
  split at h
  next hu =>
    obtain ⟨hzero, h⟩ := Option.ite_none_right_eq_some.1 h
    cases h
    have hy' : (x * 4 + y / 16) % 4 * 16 = y := by omega
    simp only [encodeList, ha, hx', hy', hu]
  next hu =>
    obtain ⟨z, hsextet, hlast⟩ := Option.bind_eq_some_iff.1 h
    obtain ⟨hz, rfl⟩ := symbol_of_sextet? hsextet
    obtain ⟨hzero, hdata⟩ := Option.ite_none_right_eq_some.1 hlast
    cases hdata
    have hb : (UInt8.ofNat (y % 16 * 16 + z / 4)).toNat = y % 16 * 16 + z / 4 :=
      toNat_byte (by omega)
    have hy' : (x * 4 + y / 16) % 4 * 16 + (y % 16 * 16 + z / 4) / 16 = y := by omega
    have hz' : (y % 16 * 16 + z / 4) % 16 * 4 = z := by omega
    simp only [encodeList, ha, hb, hx', hy', hz']

theorem decodeLast?_padding (hv : v ≠ '=') : decodeLast? s t '=' v = none := by
  simp only [decodeLast?, hv, if_true, false_and, if_false, Option.bind_eq_bind,
    Option.bind_fun_none]

theorem encodeList_of_decodeLast? (h : decodeLast? s t u v = some data) :
    encodeList data = [s, t, u, v] := by
  by_cases hv : v = '='
  · cases hv
    exact encodeList_of_padded h
  by_cases hu : u = '='
  · rw [hu, decodeLast?_padding hv] at h
    cases h
  · rw [decodeLast?_eq_decodeGroup? hu hv] at h
    have hgroup : encodeList (data ++ []) = [s, t, u, v] := encodeList_of_decodeGroup? h
    rwa [List.append_nil] at hgroup

/-- Every byte sequence has one text. -/
theorem encodeList_of_decodeList? (h : decodeList? text = some data) : encodeList data = text := by
  induction text using decodeList?.induct generalizing data with
  | case1 =>
    cases h
    rfl
  | case2 s t u v => exact encodeList_of_decodeLast? h
  | case3 s t u v rest hne ih =>
    rw [decodeList?] at h
    · obtain ⟨head, hhead, h⟩ := Option.bind_eq_some_iff.1 h
      obtain ⟨tail, htail, h⟩ := Option.bind_eq_some_iff.1 h
      cases h
      rw [encodeList_of_decodeGroup? hhead, ih htail]
    · exact hne
  | case4 text h1 h2 h3 =>
    rw [decodeList?] at h
    · cases h
    · exact h1
    · exact h2
    · exact h3

theorem decode?_eq_some_iff {text : String} : decode? text = some data ↔ encode data = text := by
  constructor
  · intro h
    rw [encode, encodeList_of_decodeList? h, String.ofList_toList]
  · rintro rfl
    exact decode?_encode data

end Canonical

theorem isBlank_symbol {n : Nat} (h : n < 64) : Text.isBlank (symbol n) = false := by
  have hall : ∀ n : Fin 64, Text.isBlank (symbol n) = false := by decide +kernel
  exact hall ⟨n, h⟩

/-- There are no blanks in base64. -/
theorem isBlank_encodeList (data : List UInt8) : ∀ c ∈ encodeList data, Text.isBlank c = false := by
  have hpad : Text.isBlank '=' = false := by decide
  induction data using encodeList.induct with
  | case1 => exact List.forall_mem_nil _
  | case2 a =>
    obtain ⟨hx, hy, -, -⟩ := sextets_lt a 0 0
    simp only [UInt8.toNat_zero, Nat.zero_div, Nat.add_zero] at hy
    simp only [encodeList, List.forall_mem_cons]
    exact ⟨isBlank_symbol hx, isBlank_symbol hy, hpad, hpad, List.forall_mem_nil _⟩
  | case3 a b =>
    obtain ⟨hx, hy, hz, -⟩ := sextets_lt a b 0
    simp only [UInt8.toNat_zero, Nat.zero_div, Nat.add_zero] at hz
    simp only [encodeList, List.forall_mem_cons]
    exact ⟨isBlank_symbol hx, isBlank_symbol hy, isBlank_symbol hz, hpad, List.forall_mem_nil _⟩
  | case4 a b c rest ih =>
    obtain ⟨hx, hy, hz, hw⟩ := sextets_lt a b c
    simp only [encodeList, List.forall_mem_cons]
    exact ⟨isBlank_symbol hx, isBlank_symbol hy, isBlank_symbol hz, isBlank_symbol hw, ih⟩

end RecordMapper.Base64
