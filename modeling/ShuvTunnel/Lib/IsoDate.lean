/-
# Instants and their texts in UTC

An instant is a number of milliseconds since 1970, within a hundred million
days of it. `format` is its text in the simplified extended format of ISO 8601,
with milliseconds and in UTC: four digits for a year from 0 to 9999, a sign and
six digits for the others. `parse` reads exactly these texts.

The year of a day is guessed from the mean length of a year and is then at most
one off.

Key definitions: `Iso.Instant`, `Iso.format`, `Iso.parse`.
Key theorems: `Iso.yearFromDay_spec`, `Iso.parse_format`.
-/
import Mathlib.Data.List.Basic
import Mathlib.Data.Int.Init
import Mathlib.Algebra.Group.Nat.Defs

namespace Iso

/-! ### Days, years and months -/

/-- The day on which the year begins. -/
def dayFromYear (y : ℤ) : ℤ := 365 * (y - 1970) + (y - 1969) / 4 - (y - 1901) / 100 + (y - 1601) / 400

/-- A year next to that of the day. -/
def yearGuess (day : ℤ) : ℤ := 1970 + 400 * day / 146097

/-- The year of a day. -/
def yearFromDay (day : ℤ) : ℤ :=
  let y := yearGuess day
  if day < dayFromYear y then y - 1 else if dayFromYear (y + 1) ≤ day then y + 1 else y

/-- 1 in a leap year. -/
def leap (y : ℤ) : ℤ := dayFromYear (y + 1) - dayFromYear y - 365

/-- The day of the year on which the month begins; January is 0. -/
def dayFromMonth (leap : ℤ) : ℕ → ℤ
  | 0 => 0
  | 1 => 31
  | 2 => 59 + leap
  | 3 => 90 + leap
  | 4 => 120 + leap
  | 5 => 151 + leap
  | 6 => 181 + leap
  | 7 => 212 + leap
  | 8 => 243 + leap
  | 9 => 273 + leap
  | 10 => 304 + leap
  | _ => 334 + leap

/-- The month of a day of the year. -/
def monthFromDay (leap day : ℤ) : ℕ :=
  if day < 31 then 0
  else if day < 59 + leap then 1
  else if day < 90 + leap then 2
  else if day < 120 + leap then 3
  else if day < 151 + leap then 4
  else if day < 181 + leap then 5
  else if day < 212 + leap then 6
  else if day < 243 + leap then 7
  else if day < 273 + leap then 8
  else if day < 304 + leap then 9
  else if day < 334 + leap then 10
  else 11

theorem dayFromYear_le (y : ℤ) : 400 * dayFromYear y ≤ 146097 * (y - 1970) + 589 := by
  unfold dayFromYear
  omega

theorem le_dayFromYear (y : ℤ) : 146097 * (y - 1970) - 506 ≤ 400 * dayFromYear y := by
  unfold dayFromYear
  omega

theorem leap_cases (y : ℤ) : leap y = 0 ∨ leap y = 1 := by
  unfold leap dayFromYear
  omega

theorem yearFromDay_spec (day : ℤ) :
    dayFromYear (yearFromDay day) ≤ day ∧ day < dayFromYear (yearFromDay day + 1) := by
  have hguess : 146097 * (yearGuess day - 1970) ≤ 400 * day ∧ 400 * day < 146097 * (yearGuess day - 1969) := by
    unfold yearGuess
    omega
  have hbelow := dayFromYear_le (yearGuess day - 1)
  have habove := le_dayFromYear (yearGuess day + 1 + 1)
  unfold yearFromDay
  dsimp only
  split
  · rw [Int.sub_add_cancel]
    omega
  · split
    · omega
    · omega

theorem monthFromDay_lt (leap day : ℤ) : monthFromDay leap day < 12 := by
  unfold monthFromDay
  repeat' refine iteInduction (motive := (· < 12)) (fun _ => ?_) (fun _ => ?_)
  all_goals decide

/-- The day is in its month. -/
theorem monthFromDay_spec {leap day : ℤ} (hleap : leap = 0 ∨ leap = 1) (h0 : 0 ≤ day) (h1 : day < 365 + leap) :
    dayFromMonth leap (monthFromDay leap day) ≤ day ∧ day < dayFromMonth leap (monthFromDay leap day) + 31 := by
  let InMonth (m : ℕ) : Prop := dayFromMonth leap m ≤ day ∧ day < dayFromMonth leap m + 31
  show InMonth (monthFromDay leap day)
  unfold monthFromDay
  -- the days of the month are those behind the tests before it
  repeat' refine iteInduction (motive := InMonth) (fun _ => ?_) (fun _ => ?_)
  all_goals
    simp only [InMonth, dayFromMonth]
    omega

/-! ### Numbers in digits -/

/-- The last `width` digits. -/
def pad : ℕ → ℕ → List Char
  | 0, _ => []
  | width + 1, n => pad width (n / 10) ++ [Nat.digitChar (n % 10)]

/-- The number of some digits. -/
def number (cs : List Char) : ℕ := cs.foldl (fun n c => 10 * n + (c.toNat - 48)) 0

theorem length_pad (width n : ℕ) : (pad width n).length = width := by
  induction width generalizing n with
  | zero => rfl
  | succ width ih => simp [pad, ih]

theorem number_pad {width n : ℕ} (h : n < 10 ^ width) : number (pad width n) = n := by
  have digit : ∀ d < 10, (Nat.digitChar d).toNat - 48 = d := by decide
  induction width generalizing n with
  | zero =>
    have : n = 0 := by simpa using h
    rw [this]
    rfl
  | succ width ih =>
    have hlt : n / 10 < 10 ^ width := by
      rw [Nat.pow_succ] at h
      omega
    have hrec : number (pad width (n / 10)) = n / 10 := ih hlt
    unfold number at hrec ⊢
    rw [pad, List.foldl_append, hrec, List.foldl_cons, List.foldl_nil, digit _ (Nat.mod_lt _ (by decide))]
    omega

/-! ### Texts -/

/-- A valid time value. -/
structure Instant where
  ms : ℤ
  bound : -8640000000000000 ≤ ms ∧ ms ≤ 8640000000000000
  deriving DecidableEq

/-- A year in four digits, or with its sign in six. -/
def formatYear (y : ℤ) : List Char :=
  if 0 ≤ y ∧ y < 10000 then pad 4 y.toNat
  else (if y < 0 then '-' else '+') :: pad 6 y.natAbs

/-- The fields of a text, from the year to the milliseconds. -/
structure Fields where
  year : ℤ
  month : ℕ
  day : ℕ
  hour : ℕ
  minute : ℕ
  second : ℕ
  milli : ℕ

/-- The fields of a time value. -/
def fields (ms : ℤ) : Fields :=
  let day := ms / 86400000
  let time := (ms % 86400000).toNat
  let year := yearFromDay day
  let month := monthFromDay (leap year) (day - dayFromYear year)
  { year
    month := month + 1
    day := (day - dayFromYear year - dayFromMonth (leap year) month).toNat + 1
    hour := time / 3600000
    minute := time / 60000 % 60
    second := time / 1000 % 60
    milli := time % 1000 }

/-- The time value of the fields. -/
def Fields.ms (f : Fields) : ℤ :=
  (dayFromYear f.year + dayFromMonth (leap f.year) (f.month - 1) + (f.day - 1)) * 86400000 +
    f.hour * 3600000 + f.minute * 60000 + f.second * 1000 + f.milli

/-- The text of the fields. -/
def Fields.text (f : Fields) : List Char :=
  formatYear f.year ++ ('-' :: (pad 2 f.month ++ ('-' :: (pad 2 f.day ++ ('T' :: (pad 2 f.hour ++
    (':' :: (pad 2 f.minute ++ (':' :: (pad 2 f.second ++ ('.' :: (pad 3 f.milli ++ ['Z']))))))))))))

/-- The text of an instant, as `toISOString` gives it. -/
def format (t : Instant) : String := String.ofList (fields t.ms).text

/-- The year a text begins with, and what is behind it. -/
def readYear : List Char → ℤ × List Char
  | '+' :: cs => (number (cs.take 6), cs.drop 6)
  | '-' :: cs => (-number (cs.take 6), cs.drop 6)
  | cs => (number (cs.take 4), cs.drop 4)

/-- A field of that many digits, behind a separator. -/
def readField (width : ℕ) (cs : List Char) : ℕ × List Char :=
  (number ((cs.drop 1).take width), (cs.drop 1).drop width)

/-- The fields of a text, which is taken to be well formed. -/
def readFields (cs : List Char) : Fields :=
  let year := readYear cs
  let month := readField 2 year.2
  let day := readField 2 month.2
  let hour := readField 2 day.2
  let minute := readField 2 hour.2
  let second := readField 2 minute.2
  let milli := readField 3 second.2
  { year := year.1
    month := month.1
    day := day.1
    hour := hour.1
    minute := minute.1
    second := second.1
    milli := milli.1 }

/-- The instant of which it is the text. -/
def parse (text : String) : Option Instant :=
  let ms := (readFields text.toList).ms
  if h : -8640000000000000 ≤ ms ∧ ms ≤ 8640000000000000 then
    if format ⟨ms, h⟩ = text then some ⟨ms, h⟩ else none
  else none

theorem take_pad (width n : ℕ) (rest : List Char) : (pad width n ++ rest).take width = pad width n :=
  List.take_left' (length_pad width n)

theorem drop_pad (width n : ℕ) (rest : List Char) : (pad width n ++ rest).drop width = rest :=
  List.drop_left' (length_pad width n)

theorem readField_pad {width n : ℕ} (h : n < 10 ^ width) (c : Char) (rest : List Char) :
    readField width (c :: (pad width n ++ rest)) = (n, rest) := by
  unfold readField
  rw [List.drop_one, List.tail_cons, take_pad, drop_pad, number_pad h]

theorem readYear_formatYear {y : ℤ} (h : y.natAbs < 1000000) (rest : List Char) :
    readYear (formatYear y ++ rest) = (y, rest) := by
  have h6 : number (pad 6 y.natAbs) = y.natAbs := number_pad h
  unfold formatYear
  split
  · rename_i hy
    have h4 : number (pad 4 y.toNat) = y.toNat := number_pad (by omega)
    have hdigit : ∀ d < 10, Nat.digitChar d ≠ '+' ∧ Nat.digitChar d ≠ '-' := by decide
    have hpad : pad 4 y.toNat = Nat.digitChar (y.toNat / 10 / 10 / 10 % 10) :: (pad 4 y.toNat).tail := rfl
    obtain ⟨hplus, hminus⟩ := hdigit _ (Nat.mod_lt (y.toNat / 10 / 10 / 10) (by decide))
    have hread : readYear (pad 4 y.toNat ++ rest) =
        ((number ((pad 4 y.toNat ++ rest).take 4) : ℤ), (pad 4 y.toNat ++ rest).drop 4) := by
      rw [hpad, List.cons_append, readYear]
      · exact fun cs he => hplus (List.cons.inj he).1
      · exact fun cs he => hminus (List.cons.inj he).1
    rw [hread, take_pad, drop_pad, h4]
    exact Prod.ext (by simp only; omega) rfl
  · split
    · show (-(number ((pad 6 y.natAbs ++ rest).take 6) : ℤ), (pad 6 y.natAbs ++ rest).drop 6) = _
      rw [take_pad, drop_pad, h6]
      exact Prod.ext (by simp only; omega) rfl
    · show ((number ((pad 6 y.natAbs ++ rest).take 6) : ℤ), (pad 6 y.natAbs ++ rest).drop 6) = _
      rw [take_pad, drop_pad, h6]
      exact Prod.ext (by simp only; omega) rfl

theorem readFields_text {f : Fields} (hy : f.year.natAbs < 1000000) (hm : f.month < 10 ^ 2) (hd : f.day < 10 ^ 2)
    (hh : f.hour < 10 ^ 2) (hmin : f.minute < 10 ^ 2) (hs : f.second < 10 ^ 2) (hms : f.milli < 10 ^ 3) :
    readFields f.text = f := by
  simp only [readFields, Fields.text, readYear_formatYear hy, readField_pad hm, readField_pad hd, readField_pad hh,
    readField_pad hmin, readField_pad hs, readField_pad hms]

/-- An instant has the fields of its day and of its time of the day. -/
theorem ms_fields (ms : ℤ) : (fields ms).ms = ms := by
  obtain ⟨h0, h1⟩ := yearFromDay_spec (ms / 86400000)
  have hday : ms / 86400000 - dayFromYear (yearFromDay (ms / 86400000)) < 365 + leap (yearFromDay (ms / 86400000)) := by
    unfold leap
    omega
  obtain ⟨hm, -⟩ := monthFromDay_spec (leap_cases _) (by omega) hday
  unfold fields Fields.ms
  dsimp only
  rw [Nat.add_sub_cancel]
  generalize dayFromMonth _ _ = start at hm ⊢
  omega

theorem parse_format (t : Instant) : parse (format t) = some t := by
  obtain ⟨ms, hb⟩ := t
  obtain ⟨h0, h1⟩ := yearFromDay_spec (ms / 86400000)
  have hle := dayFromYear_le (yearFromDay (ms / 86400000) + 1)
  have hge := le_dayFromYear (yearFromDay (ms / 86400000))
  have hday : ms / 86400000 - dayFromYear (yearFromDay (ms / 86400000)) < 365 + leap (yearFromDay (ms / 86400000)) := by
    unfold leap
    omega
  obtain ⟨hm, hm'⟩ := monthFromDay_spec (leap_cases _) (by omega) hday
  have hmonth := monthFromDay_lt (leap (yearFromDay (ms / 86400000)))
    (ms / 86400000 - dayFromYear (yearFromDay (ms / 86400000)))
  have hread : readFields (fields ms).text = fields ms := by
    refine readFields_text ?_ ?_ ?_ ?_ ?_ ?_ ?_
    · show (yearFromDay (ms / 86400000)).natAbs < 1000000
      omega
    · show monthFromDay _ _ + 1 < 100
      omega
    · show Int.toNat _ + 1 < 100
      omega
    · show (ms % 86400000).toNat / 3600000 < 100
      omega
    · show (ms % 86400000).toNat / 60000 % 60 < 100
      omega
    · show (ms % 86400000).toNat / 1000 % 60 < 100
      omega
    · show (ms % 86400000).toNat % 1000 < 1000
      omega
  unfold parse
  have hms : (readFields (format ⟨ms, hb⟩).toList).ms = ms := by
    rw [format, String.toList_ofList, hread, ms_fields]
  simp only [hms, hb, and_self, dite_true, if_true]

end Iso
