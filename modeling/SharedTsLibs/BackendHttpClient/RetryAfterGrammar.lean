import SharedTsLibs.BackendHttpClient.Retry
import SharedTsLibs.Lib.HttpDate

/-!
# The grammar of `Retry-After`

A value of the header is a number of seconds or an HTTP-date.  `parseRetryAfterHeader` leaves the
reading to `Number(text)` and `new Date(text)`, which know more than these two.

* `FollowsGrammar` — what the grammar makes of a value.
* `followsGrammar_iff` — the header is read so except for the values that the conversions know
  and the grammar does not, and the dates that `Date` takes for others.
-/

namespace SharedTsLibs.BackendHttpClient

open NumericText (number ofText readDigits)

/-- A value that is an HTTP-date which is not past. -/
def Dated (now : ℚ) (value : String) : Prop :=
  ∃ t : ℤ, HttpDate.Denotes now value.toList t ∧ now ≤ t

/-- What the grammar makes of a value of the header: a sequence of digits is a number of seconds,
which is promised for the numbers that the runtime has; a date that is not past is waited for;
there is nothing else. -/
structure FollowsGrammar (rounding : JsNumber.Rounding) (now : ℚ) (value : String)
    (delay : Option JsNumber) : Prop where
  seconds : ∀ s, readDigits value.toList = some s → rounding.round s = .finite s →
    delay = some (rounding.round (s * 1000))
  date : ∀ t, HttpDate.Denotes now value.toList t → now ≤ t → delay = some (.finite (t - now))
  other : readDigits value.toList = none → ¬ Dated now value → delay = none

/-! ## What is read otherwise -/

/-- No sequence of digits, and yet a numeral of the language for what is a whole number in the
runtime, not a negative one: with white space, a sign, a point, an exponent or in another base. -/
def ReadAsSeconds (rounding : JsNumber.Rounding) (value : String) : Prop :=
  value ≠ "" ∧ readDigits value.toList = none ∧
    ∃ (q : ℚ) (n : ℕ), ofText value.toList = .finite q ∧ rounding.round q = .finite n

/-- No numeral and no HTTP-date that is not past, and yet such a date for `new Date(text)`: in
another format, of a day that there is not or that has another name, or a past date taken for
another one. -/
def ReadAsDate (getTime : String → JsNumber) (now : ℚ) (value : String) : Prop :=
  ofText value.toList = .nan ∧ ¬ Dated now value ∧ .finite now ≤ getTime value

/-- An HTTP-date that is not past and no text of `toUTCString`, which `new Date(text)` takes for
another time or for none: in an obsolete format, with a leap second or of a year before 100. -/
def Misdated (getTime : String → JsNumber) (now : ℚ) (value : String) : Prop :=
  ¬ HttpDate.IsUtcString value.toList ∧
    ∃ t : ℤ, HttpDate.Denotes now value.toList t ∧ now ≤ t ∧ getTime value ≠ .finite (t : ℚ)

/-! ## What is returned -/

section
variable {readers : TextReaders} {now : ℚ} {headers : List (String × HeaderValue)}
  {value : String}

theorem parseRetryAfterHeader_absent (hvalue : retryAfterValue headers = none) :
    parseRetryAfterHeader readers now headers = none := by
  rw [parseRetryAfterHeader, hvalue]

theorem parseRetryAfterHeader_empty (hvalue : retryAfterValue headers = some "") :
    parseRetryAfterHeader readers now headers = none := by
  rw [parseRetryAfterHeader, hvalue]
  rfl

/-- A whole number of seconds is returned as milliseconds. -/
theorem parseRetryAfterHeader_of_natCast {n : ℕ} (hvalue : retryAfterValue headers = some value)
    (hne : value ≠ "") (hnumber : readers.number value = .finite n) :
    parseRetryAfterHeader readers now headers = some (readers.rounding.round (n * 1000)) := by
  obtain ⟨hint, hneg⟩ := JsNumber.isInteger_and_not_neg_iff.2 ⟨n, hnumber⟩
  simp only [parseRetryAfterHeader, hvalue]
  rw [if_neg hne, if_pos (by simp [hnumber]), if_neg (by simp [hint, hneg]), hnumber]
  rfl

/-- Other numbers are refused. -/
theorem parseRetryAfterHeader_of_number (hvalue : retryAfterValue headers = some value)
    (hnan : readers.number value ≠ .nan) (hn : ¬ ∃ n : ℕ, readers.number value = .finite n) :
    parseRetryAfterHeader readers now headers = none := by
  have hrefused : (!(readers.number value).isInteger || decide (readers.number value < 0)) =
      true := by
    rw [← JsNumber.isInteger_and_not_neg_iff] at hn
    by_contra hcon
    exact hn (by simpa using hcon)
  simp only [parseRetryAfterHeader, hvalue]
  by_cases hempty : value = ""
  · rw [if_pos hempty]
  · rw [if_neg hempty, if_pos hnan, if_pos hrefused]

/-- What is no number is returned as the time until a date that is not past. -/
theorem parseRetryAfterHeader_of_nan (hvalue : retryAfterValue headers = some value)
    (hne : value ≠ "") (hnan : readers.number value = .nan) :
    parseRetryAfterHeader readers now headers =
      if .finite now ≤ readers.getTime value then some (readers.getTime value + .finite (-now))
      else none := by
  have hdelta : ∀ time : JsNumber, (if time ≠ .nan then
      if time + .finite (-now) < 0 then none else some (time + .finite (-now)) else none) =
      if .finite now ≤ time then some (time + .finite (-now)) else none := by
    intro time
    cases time with
    | finite q =>
      by_cases hle : now ≤ q
      · simp [JsNumber.ofNat_eq_finite, hle, not_lt.2 hle]
      · simp [JsNumber.ofNat_eq_finite, hle, not_le.1 hle]
    | infinity negative => cases negative <;> rfl
    | nan => rfl
  simp only [parseRetryAfterHeader, hvalue]
  rw [if_neg hne, if_neg (by simp [hnan])]
  exact hdelta (readers.getTime value)

end

/-! ## What the runtime reads -/

/-- The readers of a runtime. -/
@[simps]
def runtimeReaders (rounding : JsNumber.Rounding) (getTime : String → JsNumber) : TextReaders where
  number := number rounding
  getTime := getTime
  rounding := rounding

variable {rounding : JsNumber.Rounding} {getTime : String → JsNumber} {now : ℚ}
  {headers : List (String × HeaderValue)} {value : String} {t : ℤ}

/-- A value is read as no number exactly when it is no numeral. -/
theorem number_eq_nan_iff : number rounding value = .nan ↔ ofText value.toList = .nan := by
  rw [number]
  cases ofText value.toList with
  | finite q => simpa [JsNumber.rounded] using rounding.round_ne_nan q
  | infinity negative => simp [JsNumber.rounded]
  | nan => simp [JsNumber.rounded]

/-- A value is read as a whole number exactly when it is a numeral for one. -/
theorem number_eq_finite_iff {p : ℚ} :
    number rounding value = .finite p ↔
      ∃ q : ℚ, ofText value.toList = .finite q ∧ rounding.round q = .finite p := by
  rw [number]
  cases ofText value.toList with
  | finite q => simp [JsNumber.rounded]
  | infinity negative => simp [JsNumber.rounded]
  | nan => simp [JsNumber.rounded]

/-- An HTTP-date is no numeral. -/
theorem ofText_of_denotes (h : HttpDate.Denotes now value.toList t) :
    ofText value.toList = .nan := NumericText.readNumeral_of_blank h.mem_trim

theorem ne_empty_of_ofText (h : ofText value.toList = .nan) : value ≠ "" := by
  rintro rfl
  cases h

/-! ## What follows the grammar -/

theorem followsGrammar_of_not_misread (hread : HttpDate.ReadsUtcStrings getTime)
    (hvalue : retryAfterValue headers = some value) (hseconds : ¬ ReadAsSeconds rounding value)
    (hdate : ¬ ReadAsDate getTime now value) (hmisdated : ¬ Misdated getTime now value) :
    FollowsGrammar rounding now value
      (parseRetryAfterHeader (runtimeReaders rounding getTime) now headers) where
  seconds := by
    intro s hs hround
    have hne : value ≠ "" := by
      rintro rfl
      cases hs
    have hnumber : number rounding value = .finite s :=
      number_eq_finite_iff.2 ⟨s, NumericText.ofText_of_readDigits hs, hround⟩
    exact parseRetryAfterHeader_of_natCast hvalue hne hnumber
  date := by
    intro t ht hle
    have hnumeral := ofText_of_denotes ht
    have htime : getTime value = .finite (t : ℚ) := by
      by_contra hother
      by_cases hutc : HttpDate.IsUtcString value.toList
      · exact hother (hread.eq_time hutc ht)
      · exact hmisdated ⟨hutc, t, ht, hle, hother⟩
    have hnow : .finite now ≤ JsNumber.finite (t : ℚ) := JsNumber.finite_le_finite.2 hle
    rw [parseRetryAfterHeader_of_nan hvalue (ne_empty_of_ofText hnumeral)
      (number_eq_nan_iff.2 hnumeral), runtimeReaders_getTime, htime, if_pos hnow,
      JsNumber.finite_add_finite, sub_eq_add_neg]
  other := by
    intro hdigits hdated
    by_cases hne : value = ""
    · subst hne
      exact parseRetryAfterHeader_empty hvalue
    · by_cases hnan : number rounding value = .nan
      · have hpast : ¬ .finite now ≤ getTime value :=
          fun hle => hdate ⟨number_eq_nan_iff.1 hnan, hdated, hle⟩
        rw [parseRetryAfterHeader_of_nan hvalue hne hnan, runtimeReaders_getTime, if_neg hpast]
      · refine parseRetryAfterHeader_of_number hvalue hnan ?_
        rintro ⟨n, hn⟩
        obtain ⟨q, hq, hround⟩ := number_eq_finite_iff.1 hn
        exact hseconds ⟨hne, hdigits, q, n, hq, hround⟩

/-- What the grammar does not know is not read as seconds. -/
theorem FollowsGrammar.not_readAsSeconds (hvalue : retryAfterValue headers = some value)
    (h : FollowsGrammar rounding now value
      (parseRetryAfterHeader (runtimeReaders rounding getTime) now headers)) :
    ¬ ReadAsSeconds rounding value := by
  rintro ⟨hne, hdigits, q, n, hq, hround⟩
  have hdated : ¬ Dated now value := by
    rintro ⟨t, ht, -⟩
    rw [ofText_of_denotes ht] at hq
    cases hq
  have hnone := h.other hdigits hdated
  rw [parseRetryAfterHeader_of_natCast hvalue hne (number_eq_finite_iff.2 ⟨q, hq, hround⟩)]
    at hnone
  cases hnone

/-- What the grammar does not know is not read as a date. -/
theorem FollowsGrammar.not_readAsDate (hvalue : retryAfterValue headers = some value)
    (h : FollowsGrammar rounding now value
      (parseRetryAfterHeader (runtimeReaders rounding getTime) now headers)) :
    ¬ ReadAsDate getTime now value := by
  rintro ⟨hnumeral, hdated, hnow⟩
  have hdigits : readDigits value.toList = none := by
    cases hs : readDigits value.toList with
    | none => rfl
    | some s => cases (NumericText.ofText_of_readDigits hs).symm.trans hnumeral
  have hnone := h.other hdigits hdated
  rw [parseRetryAfterHeader_of_nan hvalue (ne_empty_of_ofText hnumeral)
    (number_eq_nan_iff.2 hnumeral), runtimeReaders_getTime, if_pos hnow] at hnone
  cases hnone

/-- Dates are taken for what they are. -/
theorem FollowsGrammar.not_misdated (hvalue : retryAfterValue headers = some value)
    (h : FollowsGrammar rounding now value
      (parseRetryAfterHeader (runtimeReaders rounding getTime) now headers)) :
    ¬ Misdated getTime now value := by
  rintro ⟨-, t, ht, hle, htime⟩
  have hnumeral := ofText_of_denotes ht
  have hdelay := h.date t ht hle
  rw [parseRetryAfterHeader_of_nan hvalue (ne_empty_of_ofText hnumeral)
    (number_eq_nan_iff.2 hnumeral), runtimeReaders_getTime, Option.ite_none_right_eq_some,
    Option.some.injEq] at hdelay
  obtain ⟨-, hdelay⟩ := hdelay
  cases hread : getTime value with
  | finite q =>
    rw [hread, JsNumber.finite_add_finite, JsNumber.finite.injEq] at hdelay
    have hq : q = t := by linarith
    exact htime (by rw [hread, hq])
  | infinity negative =>
    rw [hread] at hdelay
    cases hdelay
  | nan =>
    rw [hread] at hdelay
    cases hdelay

/-- The header is read by its grammar, for every value and at every time, except for what
`Number(text)` and `new Date(text)` read in another way. -/
theorem followsGrammar_iff (hread : HttpDate.ReadsUtcStrings getTime)
    (headers : List (String × HeaderValue)) :
    (retryAfterValue headers = none →
      parseRetryAfterHeader (runtimeReaders rounding getTime) now headers = none) ∧
    ∀ value, retryAfterValue headers = some value →
      (FollowsGrammar rounding now value
          (parseRetryAfterHeader (runtimeReaders rounding getTime) now headers) ↔
        ¬ ReadAsSeconds rounding value ∧ ¬ ReadAsDate getTime now value ∧
          ¬ Misdated getTime now value) := by
  refine ⟨parseRetryAfterHeader_absent, fun value hvalue => ⟨fun h => ?_, fun h => ?_⟩⟩
  · exact ⟨h.not_readAsSeconds hvalue, h.not_readAsDate hvalue, h.not_misdated hvalue⟩
  · exact followsGrammar_of_not_misread hread hvalue h.1 h.2.1 h.2.2

/-- A date in the preferred format. -/
def november : HttpDate.Timestamp where
  year := 1994
  month := 10
  day := 6
  hour := 8
  minute := 49
  second := 37
  valid := by decide

theorem followsGrammar_november :
    FollowsGrammar JsNumber.overflowing 784111772000 "Sun, 06 Nov 1994 08:49:37 GMT"
      (parseRetryAfterHeader (runtimeReaders JsNumber.overflowing HttpDate.fixdateTime)
        784111772000
        [("retry-after", .many ["Sun, 06 Nov 1994 08:49:37 GMT", "60"])]) := by
  have htext : "Sun, 06 Nov 1994 08:49:37 GMT".toList = november.fixdate := by decide +kernel
  have hnumeral : ofText "Sun, 06 Nov 1994 08:49:37 GMT".toList = .nan := by decide +kernel
  have hdenotes : HttpDate.Denotes 784111772000 "Sun, 06 Nov 1994 08:49:37 GMT".toList
      november.time := by
    rw [htext]
    exact .fixdate november
  refine ((followsGrammar_iff HttpDate.readsUtcStrings_fixdateTime _).2 _ rfl).2 ⟨?_, ?_, ?_⟩
  · rintro ⟨-, -, q, n, hq, -⟩
    rw [hnumeral] at hq
    cases hq
  · rintro ⟨-, hdated, -⟩
    exact hdated ⟨november.time, hdenotes, by decide +kernel⟩
  · rintro ⟨hutc, -⟩
    exact hutc ⟨november, by decide, by decide, htext⟩

/-- A value without a blank inside that is no sequence of digits has to be refused. -/
theorem not_followsGrammar {delay : Option JsNumber} (hdigits : readDigits value.toList = none)
    (hblank : ' ' ∉ JsText.trim value.toList) (hsome : delay ≠ none) :
    ¬ FollowsGrammar rounding now value delay :=
  fun h => hsome (h.other hdigits fun ⟨_, ht, _⟩ => hblank ht.mem_trim)

/-- Numerals of the language are accepted that the grammar does not know: another base, an
exponent, a sign and white space. -/
theorem numerals_not_followsGrammar :
    (¬ FollowsGrammar JsNumber.overflowing 0 "0x10"
      (parseRetryAfterHeader (runtimeReaders JsNumber.overflowing HttpDate.fixdateTime) 0
        [("retry-after", .one "0x10")])) ∧
    (¬ FollowsGrammar JsNumber.overflowing 0 "1e3"
      (parseRetryAfterHeader (runtimeReaders JsNumber.overflowing HttpDate.fixdateTime) 0
        [("retry-after", .one "1e3")])) ∧
    (¬ FollowsGrammar JsNumber.overflowing 0 "+5"
      (parseRetryAfterHeader (runtimeReaders JsNumber.overflowing HttpDate.fixdateTime) 0
        [("retry-after", .many ["+5", "60"])])) ∧
    ¬ FollowsGrammar JsNumber.overflowing 0 " "
      (parseRetryAfterHeader (runtimeReaders JsNumber.overflowing HttpDate.fixdateTime) 0
        [("retry-after", .one " ")]) := by
  refine ⟨not_followsGrammar ?_ ?_ ?_, not_followsGrammar ?_ ?_ ?_, not_followsGrammar ?_ ?_ ?_,
    not_followsGrammar ?_ ?_ ?_⟩
  all_goals decide +kernel

end SharedTsLibs.BackendHttpClient
