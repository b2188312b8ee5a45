import RecordMapper.Number.Numeral
/-!
Points in time as nanoseconds since the Unix epoch, with their text in the RFC 3339 form.
-/

namespace RecordMapper

structure Timestamp where
  nanoseconds : Int
  least_le : -377705023201000000000 ≤ nanoseconds
  le_greatest : nanoseconds ≤ 253402207200999999999
  deriving DecidableEq, Repr

namespace Timestamp

def epoch : Timestamp := ⟨0, by decide, by decide⟩

def ofNanoseconds? (n : Int) : Option Timestamp :=
  if h : -377705023201000000000 ≤ n ∧ n ≤ 253402207200999999999 then some ⟨n, h.1, h.2⟩ else none

/-- A timestamp at a whole second. -/
def ofSeconds? (s : Int) : Option Timestamp :=
  if h : -377705023201 ≤ s ∧ s ≤ 253402207200 then
    some ⟨s * 1000000000, by omega, by omega⟩
  else none

/-- The seconds without their fraction. -/
def wholeSeconds (t : Timestamp) : Int := t.nanoseconds.tdiv 1000000000

theorem ofSeconds?_eq_some_iff {s : Int} {t : Timestamp} :
    ofSeconds? s = some t ↔
      (-377705023201 ≤ s ∧ s ≤ 253402207200) ∧ t.nanoseconds = s * 1000000000 := by
  simp only [ofSeconds?, Option.dite_none_right_eq_some, Option.some.injEq]
  constructor
  · rintro ⟨hs, rfl⟩
    exact ⟨hs, rfl⟩
  · rintro ⟨hs, ht⟩
    refine ⟨hs, ?_⟩
    cases t
    simp_all

theorem wholeSeconds_of_ofSeconds? {s : Int} {t : Timestamp} (h : ofSeconds? s = some t) :
    t.wholeSeconds = s := by
  obtain ⟨_, ht⟩ := ofSeconds?_eq_some_iff.1 h
  rw [wholeSeconds, ht]
  exact Int.mul_tdiv_cancel s (by decide)

/-- A day of the Gregorian calendar, extended to all years; the year before year 1 is year 0. -/
structure Date where
  year : Int
  month : Int
  day : Int
  deriving DecidableEq, Repr

/-- The date that lies `days` after the first of January 1970. Years are counted from March in
eras of 400 years, which have 146097 days. -/
def Date.ofDays (days : Int) : Date :=
  let shifted := days + 719468
  let era := shifted.fdiv 146097
  let dayOfEra := shifted.fmod 146097
  let yearOfEra := (dayOfEra - dayOfEra / 1460 + dayOfEra / 36524 - dayOfEra / 146096) / 365
  let dayOfYear := dayOfEra - (365 * yearOfEra + yearOfEra / 4 - yearOfEra / 100)
  let shiftedMonth := (5 * dayOfYear + 2) / 153
  let day := dayOfYear - (153 * shiftedMonth + 2) / 5 + 1
  let month := if shiftedMonth < 10 then shiftedMonth + 3 else shiftedMonth - 9
  let year := yearOfEra + era * 400
  ⟨if month ≤ 2 then year + 1 else year, month, day⟩

/-- Decimal digits, filled up with zeros on the left. -/
def padded (width n : Nat) : List Char :=
  let digits := Nat.toDigits 10 n
  List.replicate (width - digits.length) '0' ++ digits

/-- Four digits, or a minus sign and six. -/
def yearText (year : Int) : List Char :=
  if year < 0 then '-' :: padded 6 year.natAbs else padded 4 year.natAbs

/-- The fraction of a second without its last zeros. -/
def fractionText (nanoseconds : Nat) : List Char :=
  if nanoseconds = 0 then []
  else '.' :: ((padded 9 nanoseconds).reverse.dropWhile (· == '0')).reverse

def text (t : Timestamp) : String :=
  let seconds := t.nanoseconds.fdiv 1000000000
  let fraction := (t.nanoseconds.fmod 1000000000).toNat
  let date := Date.ofDays (seconds.fdiv 86400)
  let second := (seconds.fmod 86400).toNat
  String.ofList (yearText date.year ++ '-' :: padded 2 date.month.toNat ++
    '-' :: padded 2 date.day.toNat ++ 'T' :: padded 2 (second / 3600) ++
    ':' :: padded 2 (second / 60 % 60) ++ ':' :: padded 2 (second % 60) ++
    fractionText fraction ++ ['Z'])

end Timestamp

end RecordMapper
