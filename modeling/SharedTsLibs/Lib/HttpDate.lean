import SharedTsLibs.Lib.NumericText
import Mathlib.Data.Fintype.Basic

/-!
# HTTP-dates

The dates of HTTP headers as RFC 9110 has them: the preferred format and the two obsolete ones,
and the time that each of them denotes.

* `Timestamp` — the fields of a date, those of a day that there is.
* `Denotes` — a text in one of the formats, with its time.
* `readFixdate_fixdate` — the preferred format is read back.
* `Denotes.mem_trim` — there is a blank inside every date.
-/

namespace HttpDate

/-! ## The calendar -/

/-- A leap year. -/
def isLeapYear (year : ℤ) : Bool := year % 4 = 0 && (year % 100 ≠ 0 || year % 400 = 0)

/-- The days of a month, January being the first one, `0`. -/
def daysInMonth (year : ℤ) : Fin 12 → ℕ
  | 1 => if isLeapYear year then 29 else 28
  | 3 | 5 | 8 | 10 => 30
  | _ => 31

/-- The days from the epoch to a year. -/
def dayFromYear (year : ℤ) : ℤ :=
  365 * (year - 1970) + (year - 1969) / 4 - (year - 1901) / 100 + (year - 1601) / 400

/-- The days of a year before a month. -/
def daysBefore (year : ℤ) (month : Fin 12) : ℕ :=
  (((List.finRange 12).take month).map (daysInMonth year)).sum

/-- The fields of a date. -/
structure Fields where
  year : ℕ
  month : Fin 12
  day : ℕ
  hour : ℕ
  minute : ℕ
  second : ℕ
  deriving DecidableEq

/-- There is such a day, and such a time on it: from `00:00:00` to `23:59:60`, which is a leap
second. -/
def Fields.Valid (f : Fields) : Prop :=
  f.year < 10000 ∧ 1 ≤ f.day ∧ f.day ≤ daysInMonth f.year f.month ∧
    (f.hour < 24 ∧ f.minute < 60 ∧ f.second < 60 ∨ f.hour = 23 ∧ f.minute = 59 ∧ f.second = 60)

instance (f : Fields) : Decidable f.Valid := inferInstanceAs (Decidable (_ ∧ _ ∧ _ ∧ _))

/-- A date with its time of day, in UTC. -/
structure Timestamp extends Fields where
  valid : toFields.Valid
  deriving DecidableEq

namespace Timestamp

variable (d : Timestamp)

/-- The days from the epoch to this day in some year. -/
def dayIn (year : ℤ) : ℤ := dayFromYear year + daysBefore year d.month + d.day - 1

/-- The milliseconds from the epoch to this day and time in some year. -/
def timeIn (year : ℤ) : ℤ :=
  1000 * (86400 * d.dayIn year + 3600 * d.hour + 60 * d.minute + d.second)

/-- The milliseconds from the epoch. -/
def time : ℤ := d.timeIn d.year

/-- The day of the week, Sunday being the first one. -/
def weekday : Fin 7 := ⟨((d.dayIn d.year + 4) % 7).toNat, by omega⟩

end Timestamp

/-! ## The formats -/

/-- `month`. -/
def month : Fin 12 → String
  | 0 => "Jan" | 1 => "Feb" | 2 => "Mar" | 3 => "Apr" | 4 => "May" | 5 => "Jun"
  | 6 => "Jul" | 7 => "Aug" | 8 => "Sep" | 9 => "Oct" | 10 => "Nov" | 11 => "Dec"

/-- `day-name`. -/
def dayName : Fin 7 → String
  | 0 => "Sun" | 1 => "Mon" | 2 => "Tue" | 3 => "Wed" | 4 => "Thu" | 5 => "Fri" | 6 => "Sat"

/-- `day-name-l`. -/
def longDayName : Fin 7 → String
  | 0 => "Sunday" | 1 => "Monday" | 2 => "Tuesday" | 3 => "Wednesday" | 4 => "Thursday"
  | 5 => "Friday" | 6 => "Saturday"

/-- The last digits of a number. -/
def digits : ℕ → ℕ → List Char
  | 0, _ => []
  | width + 1, n => digits width (n / 10) ++ [Nat.digitChar (n % 10)]

namespace Timestamp

variable (d : Timestamp)

/-- `time-of-day`. -/
def timeOfDay : List Char :=
  digits 2 d.hour ++ ':' :: digits 2 d.minute ++ ':' :: digits 2 d.second

/-- `IMF-fixdate`, the preferred format. -/
def fixdate : List Char :=
  (dayName d.weekday).toList ++ ", ".toList ++ digits 2 d.day ++ ' ' :: (month d.month).toList ++
    ' ' :: digits 4 d.year ++ ' ' :: d.timeOfDay ++ " GMT".toList

/-- `rfc850-date`. -/
def rfc850Date : List Char :=
  (longDayName d.weekday).toList ++ ", ".toList ++ digits 2 d.day ++
    '-' :: (month d.month).toList ++ '-' :: digits 2 d.year ++ ' ' :: d.timeOfDay ++ " GMT".toList

/-- `asctime-date`, for a way to write the day. -/
def asctimeDate (day : List Char) : List Char :=
  (dayName d.weekday).toList ++ ' ' :: (month d.month).toList ++ ' ' :: day ++
    ' ' :: d.timeOfDay ++ ' ' :: digits 4 d.year

/-- The year that two digits stand for: this date is not more than fifty years in the future, and
a hundred years later it would be. -/
def InWindow (now : ℚ) : Prop :=
  (d.timeIn (d.year - 50) : ℚ) ≤ now ∧ now < (d.timeIn (d.year + 50) : ℚ)

end Timestamp

/-- An `HTTP-date`, named after the day of the week that it is, and the time that it denotes. -/
inductive Denotes (now : ℚ) : List Char → ℤ → Prop
  | fixdate (d : Timestamp) : Denotes now d.fixdate d.time
  | rfc850Date (d : Timestamp) (h : d.InWindow now) : Denotes now d.rfc850Date d.time
  | asctimeDate (d : Timestamp) : Denotes now (d.asctimeDate (digits 2 d.day)) d.time
  | blankDay (d : Timestamp) (h : d.day < 10) :
    Denotes now (d.asctimeDate (' ' :: digits 1 d.day)) d.time

/-! ## Numerals of fixed width -/

variable {width n : ℕ}

theorem isDigit_of_mem_digits {c : Char} (h : c ∈ digits width n) : c.isDigit = true := by
  induction width generalizing n with
  | zero => simp [digits] at h
  | succ width ih =>
    rcases List.mem_append.1 h with h | h
    · exact ih h
    · rw [List.mem_singleton.1 h, Nat.isDigit_digitChar]
      exact decide_eq_true (Nat.mod_lt n (by decide))

/-- A number is read back from enough of its digits. -/
theorem ofDigitChars_digits (h : n < 10 ^ width) : Nat.ofDigitChars 10 (digits width n) 0 = n := by
  induction width generalizing n with
  | zero =>
    have hzero : n = 0 := by simpa using h
    rw [hzero]
    rfl
  | succ width ih =>
    have hdiv : n / 10 < 10 ^ width := by
      rw [pow_succ] at h
      exact Nat.div_lt_of_lt_mul (by rwa [mul_comm] at h)
    rw [digits, Nat.ofDigitChars_append, ih hdiv,
      Nat.ofDigitChars_cons_digitChar_of_lt_ten (Nat.mod_lt n (by decide)), Nat.ofDigitChars_nil]
    exact Nat.div_add_mod n 10

/-! ## Reading the preferred format -/

theorem daysInMonth_le (year : ℤ) (month : Fin 12) : daysInMonth year month ≤ 31 := by
  unfold daysInMonth
  split
  · split <;> decide
  all_goals decide

theorem Timestamp.bounds (d : Timestamp) :
    d.year < 10 ^ 4 ∧ d.day < 10 ^ 2 ∧ d.hour < 10 ^ 2 ∧ d.minute < 10 ^ 2 ∧ d.second < 10 ^ 2 := by
  obtain ⟨hyear, -, hday, htime⟩ := d.valid
  have hle := daysInMonth_le d.year d.month
  omega

/-- The number written at a place of a text. -/
def numberAt (start width : ℕ) (cs : List Char) : ℕ :=
  Nat.ofDigitChars 10 ((cs.drop start).take width) 0

/-- The month named at a place of a text. -/
def monthAt (start : ℕ) (cs : List Char) : Option (Fin 12) :=
  (List.finRange 12).find? fun m => (month m).toList = (cs.drop start).take 3

/-- The fields that an `IMF-fixdate` of a month writes. -/
def fieldsAt (month : Fin 12) (cs : List Char) : Fields where
  year := numberAt 12 4 cs
  month := month
  day := numberAt 5 2 cs
  hour := numberAt 17 2 cs
  minute := numberAt 20 2 cs
  second := numberAt 23 2 cs

/-- The date that an `IMF-fixdate` writes. -/
def readFixdate (cs : List Char) : Option Timestamp := do
  let month ← monthAt 8 cs
  if hvalid : (fieldsAt month cs).Valid then
    if (⟨fieldsAt month cs, hvalid⟩ : Timestamp).fixdate = cs then some ⟨fieldsAt month cs, hvalid⟩
    else none
  else none

example : (readFixdate "Sun, 06 Nov 1994 08:49:37 GMT".toList).map (fun d =>
    (d.time, d.rfc850Date, d.asctimeDate (' ' :: digits 1 d.day))) =
    some (784111777000, "Sunday, 06-Nov-94 08:49:37 GMT".toList,
      "Sun Nov  6 08:49:37 1994".toList) := by decide +kernel

theorem find?_month (m : Fin 12) :
    (List.finRange 12).find? (fun m' => (month m').toList = (month m).toList) = some m := by
  revert m
  decide

theorem length_dayName (w : Fin 7) : (dayName w).toList.length = 3 := by
  revert w
  decide

theorem length_month (m : Fin 12) : (month m).toList.length = 3 := by
  revert m
  decide

/-- Every field stands at its place. -/
theorem fixdate_places (d : Timestamp) :
    monthAt 8 d.fixdate = some d.month ∧ fieldsAt d.month d.fixdate = d.toFields := by
  obtain ⟨hyear, hday, hhour, hminute, hsecond⟩ := d.bounds
  obtain ⟨a, b, c, hname⟩ := List.length_eq_three.1 (length_dayName d.weekday)
  obtain ⟨x, y, z, hmonth⟩ := List.length_eq_three.1 (length_month d.month)
  have hplaces : monthAt 8 d.fixdate =
        (List.finRange 12).find? (fun m => (month m).toList = (month d.month).toList) ∧
      fieldsAt d.month d.fixdate =
        { year := Nat.ofDigitChars 10 (digits 4 d.year) 0
          month := d.month
          day := Nat.ofDigitChars 10 (digits 2 d.day) 0
          hour := Nat.ofDigitChars 10 (digits 2 d.hour) 0
          minute := Nat.ofDigitChars 10 (digits 2 d.minute) 0
          second := Nat.ofDigitChars 10 (digits 2 d.second) 0 } := by
    rw [monthAt, Timestamp.fixdate, hname, hmonth]
    exact ⟨rfl, rfl⟩
  rw [find?_month, ofDigitChars_digits hyear, ofDigitChars_digits hday,
    ofDigitChars_digits hhour, ofDigitChars_digits hminute, ofDigitChars_digits hsecond] at hplaces
  exact hplaces

/-- The preferred format is read back. -/
theorem readFixdate_fixdate (d : Timestamp) : readFixdate d.fixdate = some d := by
  obtain ⟨hmonth, hfields⟩ := fixdate_places d
  have hvalid : (fieldsAt d.month d.fixdate).Valid := by
    rw [hfields]
    exact d.valid
  have hread : (⟨fieldsAt d.month d.fixdate, hvalid⟩ : Timestamp) = d := by
    cases d
    congr
  rw [readFixdate, hmonth, Option.bind_eq_bind, Option.bind_some, dif_pos hvalid, hread, if_pos rfl]

/-! ## What dates look like -/

variable {now : ℚ} {cs : List Char} {t : ℤ}

/-- The fourth character tells the preferred format from the others. -/
theorem eq_time_of_fixdate {d : Timestamp} (h : Denotes now cs t) (hcs : cs = d.fixdate) :
    t = d.time := by
  have hfourth : cs[3]? = some ',' := by
    obtain ⟨a, b, c, hname⟩ := List.length_eq_three.1 (length_dayName d.weekday)
    rw [hcs, Timestamp.fixdate, hname]
    rfl
  have hasctime : ∀ {e : Timestamp} {day : List Char}, (e.asctimeDate day)[3]? = some ' ' := by
    intro e day
    obtain ⟨a, b, c, hname⟩ := List.length_eq_three.1 (length_dayName e.weekday)
    rw [Timestamp.asctimeDate, hname]
    rfl
  cases h with
  | fixdate e =>
    have hread := readFixdate_fixdate e
    rw [hcs, readFixdate_fixdate d, Option.some.injEq] at hread
    rw [hread]
  | rfc850Date e =>
    have hlong : ∀ w : Fin 7, 3 < (longDayName w).toList.length ∧
        (longDayName w).toList[3]? ≠ some ',' := by decide
    obtain ⟨hlength, hcomma⟩ := hlong e.weekday
    simp only [Timestamp.rfc850Date, List.append_assoc] at hfourth
    rw [List.getElem?_append_left hlength] at hfourth
    exact absurd hfourth hcomma
  | asctimeDate e => exact absurd (hasctime.symm.trans hfourth) (by decide)
  | blankDay e => exact absurd (hasctime.symm.trans hfourth) (by decide)

/-- There is a blank in every date, and no white space around it. -/
theorem Denotes.mem_trim (h : Denotes now cs t) : ' ' ∈ JsText.trim cs := by
  have hname : ∀ w : Fin 7, (dayName w).toList ≠ [] ∧
      (dayName w).toList.any JsText.isWhitespace = false := by decide
  have hlong : ∀ w : Fin 7, (longDayName w).toList ≠ [] ∧
      (longDayName w).toList.any JsText.isWhitespace = false := by decide
  have hzone : "GMT".toList ≠ [] ∧ "GMT".toList.any JsText.isWhitespace = false := by decide
  have hyear : ∀ n, digits 4 n ≠ [] ∧ (digits 4 n).any JsText.isWhitespace = false := by
    refine fun n => ⟨by simp [digits], List.any_eq_false.2 fun c hc => Bool.eq_false_iff.1 ?_⟩
    exact NumericText.not_isWhitespace_of_isDigit (isDigit_of_mem_digits hc)
  have hasctime : ∀ (e : Timestamp) (day : List Char), ' ' ∈ JsText.trim (e.asctimeDate day) := by
    intro e day
    have htext : e.asctimeDate day = (dayName e.weekday).toList ++
        (' ' :: (month e.month).toList ++ ' ' :: day ++ ' ' :: e.timeOfDay ++ [' ']) ++
        digits 4 e.year := by
      simp [Timestamp.asctimeDate]
    rw [htext, JsText.trim_append_append (hname _) (hyear _)]
    simp
  cases h with
  | fixdate d =>
    have htext : d.fixdate = (dayName d.weekday).toList ++
        (", ".toList ++ digits 2 d.day ++ ' ' :: (month d.month).toList ++
          ' ' :: digits 4 d.year ++ ' ' :: d.timeOfDay ++ [' ']) ++ "GMT".toList := by
      simp [Timestamp.fixdate]
    rw [htext, JsText.trim_append_append (hname _) hzone]
    simp
  | rfc850Date d =>
    have htext : d.rfc850Date = (longDayName d.weekday).toList ++
        (", ".toList ++ digits 2 d.day ++ '-' :: (month d.month).toList ++
          '-' :: digits 2 d.year ++ ' ' :: d.timeOfDay ++ [' ']) ++ "GMT".toList := by
      simp [Timestamp.rfc850Date]
    rw [htext, JsText.trim_append_append (hlong _) hzone]
    simp
  | asctimeDate d => exact hasctime d _
  | blankDay d => exact hasctime d _

/-! ## Dates of the runtime -/

/-- A text that `toUTCString` writes, from the year 100 on: it knows no leap seconds. -/
def IsUtcString (cs : List Char) : Prop :=
  ∃ d : Timestamp, 100 ≤ d.year ∧ d.second < 60 ∧ cs = d.fixdate

/-- `new Date(text).getTime()` is the time that `toUTCString` was written at, as the language
asks for. -/
def ReadsUtcStrings (getTime : String → JsNumber) : Prop :=
  ∀ d : Timestamp, 100 ≤ d.year → d.second < 60 →
    getTime (.ofList d.fixdate) = .finite (d.time : ℚ)

/-- `getTime` of a runtime that reads the preferred format and no other. -/
def fixdateTime (text : String) : JsNumber :=
  match readFixdate text.toList with
  | some d => .finite (d.time : ℚ)
  | none => .nan

theorem readsUtcStrings_fixdateTime : ReadsUtcStrings fixdateTime := by
  intro d _ _
  rw [fixdateTime, String.toList_ofList, readFixdate_fixdate]

/-- What `toUTCString` writes is read as the date that it is. -/
theorem ReadsUtcStrings.eq_time {getTime : String → JsNumber} {text : String}
    (hread : ReadsUtcStrings getTime) (htext : IsUtcString text.toList)
    (h : Denotes now text.toList t) : getTime text = .finite (t : ℚ) := by
  obtain ⟨d, hyear, hsecond, hd⟩ := htext
  have hlist : text = .ofList d.fixdate := by rw [← hd, String.ofList_toList]
  rw [eq_time_of_fixdate h hd, hlist]
  exact hread d hyear hsecond

end HttpDate
