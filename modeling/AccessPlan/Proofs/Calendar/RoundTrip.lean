import AccessPlan.Calendar.Reading
import AccessPlan.Proofs.Text.Whole
import Mathlib.Data.List.TakeDrop

/-!
# Timestamps are read back

A timestamp is written as the date of its day, the time of day and the offset. The date of a day of the calendar is one
that is accepted (`isValid_ofDayNumber`), each part is read back whatever follows it, and date and time of day give the
reading of the clock again (`ofText_text`). The extended form is read back as well, so it tells timestamps apart
(`isoText_injective`).
-/

namespace AccessPlan.Calendar

/-! ## Dates -/

/-- A date of the years 1 to 9999. -/
structure Date.IsValid (d : Date) : Prop where
  year_pos : 1 ≤ d.year
  year_le : d.year ≤ 9999
  month_pos : 1 ≤ d.month
  month_le : d.month ≤ 12
  day_pos : 1 ≤ d.day
  day_le : d.day ≤ daysInMonth d.year d.month

section Dates

variable {n days : Nat}

/-- The day of a year is one of 365 or, in a leap year, of 366. -/
theorem splitYear_lt (n : Nat) : (splitYear n).2 < 365 + if isLeap (splitYear n).1 then 1 else 0 := by
  by_cases hlast : (splitYear n).2 < 365
  · omega
  · -- only the last year of four has a day more, and it is a leap year
    have hleap : isLeap (splitYear n).1 = true := by
      simp only [splitYear] at hlast ⊢
      rw [isLeap, decide_eq_true_eq]
      omega
    rw [hleap, if_pos rfl]
    simp only [splitYear]
    omega

theorem splitYear_le (h : n < dayLimit) : (splitYear n).1 ≤ 9999 := by
  rw [dayLimit] at h
  simp only [splitYear]
  omega

/-- Days that are fewer than those of all months are in one of the months. -/
theorem splitMonths_lt : ∀ {lengths : List Nat} {days : Nat}, days < lengths.foldr (· + ·) 0 →
    (splitMonths lengths days).1 < lengths.length ∧
      (splitMonths lengths days).2 < lengths.getD (splitMonths lengths days).1 0
  | [], days, h => absurd h (Nat.not_lt_zero _)
  | length :: lengths, days, h => by
    unfold splitMonths
    split
    · rename_i hd
      exact ⟨Nat.succ_pos _, hd⟩
    · rename_i hd
      have hrest : days - length < lengths.foldr (· + ·) 0 := by
        rw [List.foldr_cons] at h
        omega
      obtain ⟨hm, hr⟩ := splitMonths_lt hrest
      exact ⟨Nat.succ_lt_succ hm, hr⟩

theorem sum_monthLengths (leap : Bool) : (monthLengths leap).foldr (· + ·) 0 = 365 + if leap then 1 else 0 := by
  cases leap <;> rfl

theorem length_monthLengths (leap : Bool) : (monthLengths leap).length = 12 := by
  cases leap <;> rfl

/-- The date of a day of the calendar is one that is accepted. -/
theorem isValid_ofDayNumber (h : n < dayLimit) : (Date.ofDayNumber n).IsValid := by
  have hday := splitYear_lt n
  rw [← sum_monthLengths] at hday
  obtain ⟨hm, hd⟩ := splitMonths_lt hday
  rw [length_monthLengths] at hm
  have hyear : 1 ≤ (splitYear n).1 := by
    simp only [splitYear]
    omega
  simp only [Date.ofDayNumber]
  exact {
    year_pos := hyear
    year_le := splitYear_le h
    month_pos := Nat.succ_pos _
    month_le := hm
    day_pos := Nat.succ_pos _
    day_le := hd }

end Dates

/-! ## Parts of a text -/

section Parts

variable {rest : List Char}

/-- ASCII characters in front of a text have one byte each. -/
theorem length_le_byteCount {cs : List Char} (h : Text.IsAscii cs) (rest : List Char) :
    cs.length ≤ Text.byteCount (Text.signsOf (cs ++ rest)) := by
  have hsum : ∀ (cs : List Char) (n : Nat), cs.length ≤ cs.foldr (fun c count => c.utf8Size + count) n := by
    intro cs n
    induction cs with
    | nil => exact Nat.zero_le _
    | cons c cs ih =>
      have hc := c.utf8Size_pos
      rw [List.length_cons, List.foldr_cons]
      omega
  rw [Text.signsOf_ascii_append h, Text.byteCount, List.filterMap_append, Text.filterMap_character?, List.foldr_append]
  exact hsum cs _

/-- A date as timestamps begin with it. -/
def Date.text (d : Date) : List Char :=
  Text.padded 4 d.year ++ '-' :: Text.padded 2 d.month ++ '-' :: Text.padded 2 d.day

theorem length_dateText (d : Date) : d.text.length = 10 := by
  simp [Date.text, Text.length_padded]

theorem isAscii_dateText (d : Date) : Text.IsAscii d.text :=
  ((Text.isAscii_padded 4 _).append (.cons (by decide) (Text.isAscii_padded 2 _))).append
    (.cons (by decide) (Text.isAscii_padded 2 _))

theorem daysInMonth_le (year month : Nat) : daysInMonth year month ≤ 31 := by
  have hmost : ∀ leap, ∀ days ∈ monthLengths leap, days ≤ 31 := by decide
  unfold daysInMonth
  rw [List.getD_eq_getElem?_getD]
  cases hd : (monthLengths (isLeap year))[month - 1]? with
  | none => exact Nat.zero_le _
  | some days => exact hmost _ days (List.mem_of_getElem? hd)

/-- A date is read back, whatever follows. -/
theorem readDate_text {d : Date} (hd : d.IsValid) (rest : List Char) : readDate (d.text ++ rest) = .ok (d, rest) := by
  have hbytes : ¬ Text.byteCount (Text.signsOf (d.text ++ rest)) < 10 := by
    have hlength := length_le_byteCount (isAscii_dateText d) rest
    rw [length_dateText] at hlength
    exact Nat.not_lt.2 hlength
  have hyear : d.year < Nat.pow 10 4 := Nat.lt_succ_of_le hd.year_le
  have hmonth : d.month < Nat.pow 10 2 := Nat.lt_of_le_of_lt hd.month_le (by decide)
  have hday : d.day < Nat.pow 10 2 :=
    Nat.lt_of_le_of_lt (Nat.le_trans hd.day_le (daysInMonth_le _ _)) (by decide)
  have hmonths : ¬ (d.month < 1 ∨ 12 < d.month) := by
    have := hd.month_pos
    have := hd.month_le
    omega
  have hdays : ¬ (d.day < 1 ∨ daysInMonth d.year d.month < d.day) := by
    have := hd.day_pos
    have := hd.day_le
    omega
  unfold readDate
  rw [if_neg hbytes]
  simp only [Date.text, List.append_assoc, List.cons_append, Text.digits?_padded hyear, Text.digits?_padded hmonth,
    Text.digits?_padded hday, after?, orElse, bind, Except.bind, if_true, if_neg hmonths, if_neg hdays]
  rfl

theorem isDigit_padded : ∀ (width n : Nat), ∀ c ∈ Text.padded width n, c.isDigit = true
  | 0, _ => nofun
  | width + 1, n => by
    have hdigit : ∀ k < 10, (Nat.digitChar k).isDigit = true := by decide
    intro c hc
    rcases List.mem_append.1 hc with hc | hc
    · exact isDigit_padded width (n / 10) c hc
    · rw [List.mem_singleton.1 hc]
      exact hdigit _ (Nat.mod_lt n (by decide))

theorem digitsValue_padded : ∀ width n : Nat, Text.digitsValue (Text.padded width n) = n % Nat.pow 10 width
  | 0, n => (Nat.mod_one n).symm
  | width + 1, n => by
    have hdigit : ∀ k < 10, (Nat.digitChar k).toNat - '0'.toNat = k := by decide
    have ih := digitsValue_padded width (n / 10)
    unfold Text.digitsValue at ih ⊢
    have hpow : Nat.pow 10 (width + 1) = 10 * Nat.pow 10 width := Nat.mul_comm (Nat.pow 10 width) 10
    rw [Text.padded, List.foldl_append, ih, List.foldl_cons, List.foldl_nil, hdigit _ (Nat.mod_lt n (by decide)),
      hpow, Nat.mod_mul]
    omega

/-- Six digits after a point are the microseconds. -/
theorem microseconds_padded {micros : Nat} (h : micros < 1000000) : microseconds (Text.padded 6 micros) = micros := by
  rw [microseconds, List.take_append_of_le_length (Nat.le_of_eq (Text.length_padded 6 micros).symm),
    List.take_of_length_le (Nat.le_of_eq (Text.length_padded 6 micros)), digitsValue_padded]
  exact Nat.mod_eq_of_lt h

/-- Digits in front of what does not begin with one. -/
theorem span_padded (width n : Nat) (h : ∀ c ∈ rest.head?, c.isDigit = false) :
    (Text.padded width n ++ rest).span Char.isDigit = (Text.padded width n, rest) := by
  rw [List.span_eq_takeWhile_dropWhile, List.takeWhile_append_of_pos (isDigit_padded width n),
    List.dropWhile_append_of_pos (isDigit_padded width n)]
  cases rest with
  | nil => simp
  | cons c cs =>
    have hc : c.isDigit = false := h c rfl
    rw [List.takeWhile_cons_of_neg (by simp [hc]), List.dropWhile_cons_of_neg (by simp [hc]), List.append_nil]

/-- What may follow the seconds: nothing that would go on with them. -/
def EndsSeconds (rest : List Char) : Prop := ∀ c ∈ rest.head?, c.isDigit = false ∧ c ≠ '.' ∧ c ≠ ','

/-- Seconds with their fraction are read back. -/
theorem readSeconds?_text {seconds micros : Nat} (hs : seconds < 60) (hm : micros < 1000000) (hr : EndsSeconds rest) :
    readSeconds? (':' :: (Text.padded 2 seconds ++ (Timestamp.fractionText micros ++ rest))) =
      some (seconds * 1000000 + micros, rest) := by
  have hseconds : seconds < Nat.pow 10 2 := Nat.lt_trans hs (by decide)
  unfold readSeconds? Timestamp.fractionText
  simp only [Text.digits?_padded hseconds, bind, Option.bind, guard, if_pos hs]
  by_cases hzero : micros = 0
  · rw [if_pos hzero, hzero]
    cases rest with
    | nil => simp
    | cons c cs =>
      obtain ⟨-, hpoint, hcomma⟩ := hr c rfl
      simp [hpoint, hcomma]
  · obtain ⟨d, ds, hd⟩ : ∃ d ds, Text.padded 6 micros = d :: ds :=
      List.exists_cons_of_length_eq_add_one (Text.length_padded 6 micros)
    have hspan := span_padded 6 micros fun c hc => (hr c hc).1
    have hmicros := microseconds_padded hm
    rw [hd, List.cons_append] at hspan
    rw [hd] at hmicros
    simp only [if_neg hzero, hd, List.cons_append, true_or, if_true, hspan, hmicros]
    rfl

/-- A time of day as timestamps show it. -/
def timeText (micros : Nat) : List Char :=
  let seconds := micros / 1000000
  Text.padded 2 (seconds / 3600) ++ ':' :: Text.padded 2 (seconds / 60 % 60) ++ ':' :: Text.padded 2 (seconds % 60) ++
    Timestamp.fractionText (micros % 1000000)

/-- A time of day is read back. -/
theorem readTimeOfDay?_text {micros : Nat} (h : micros < dayLength) (hr : EndsSeconds rest) :
    readTimeOfDay? (timeText micros ++ rest) = some (micros, rest) := by
  rw [dayLength] at h
  have hhour : micros / 1000000 / 3600 < 24 := by omega
  have hminute : micros / 1000000 / 60 % 60 < 60 := Nat.mod_lt _ (by decide)
  have hsecond : micros / 1000000 % 60 < 60 := Nat.mod_lt _ (by decide)
  have hsum : micros / 1000000 / 3600 * hourLength + micros / 1000000 / 60 % 60 * minuteLength +
      (micros / 1000000 % 60 * 1000000 + micros % 1000000) = micros := by
    simp only [hourLength, minuteLength]
    omega
  have hhours := Text.digits?_padded (Nat.lt_trans hhour (by decide : 24 < Nat.pow 10 2))
  have hminutes := Text.digits?_padded (Nat.lt_trans hminute (by decide : 60 < Nat.pow 10 2))
  have hseconds := readSeconds?_text hsecond (Nat.mod_lt micros (by decide : 0 < 1000000)) hr
  simp only [readTimeOfDay?, timeText, List.append_assoc, List.cons_append, hhours, hminutes, hseconds, after?, bind,
    Option.bind, guard, if_pos hhour, if_pos hminute, if_true, hsum]
  rfl

/-- An offset as the extended form shows it. -/
def offsetText (offset : Option Int) : List Char := (offset.map Timestamp.signedOffset).getD []

/-- An offset as timestamps show it in documents. -/
def zoneText (offset : Option Int) : List Char := if offset = some 0 then ['Z'] else offsetText offset

theorem endsSeconds_offsetText (offset : Option Int) : EndsSeconds (offsetText offset) := by
  cases offset with
  | none => nofun
  | some m =>
    rintro c ⟨⟩
    split <;> decide

theorem endsSeconds_zoneText (offset : Option Int) : EndsSeconds (zoneText offset) := by
  unfold zoneText
  split
  · rintro c ⟨⟩
    decide
  · exact endsSeconds_offsetText offset

/-- Hours and minutes of an offset are read back. -/
theorem readOffset?_text {m : Nat} (h : m < 1440) :
    readOffset? (Text.padded 2 (m / 60) ++ ':' :: Text.padded 2 (m % 60)) = some m := by
  have hhour : m / 60 < Nat.pow 10 2 := Nat.lt_trans (by omega : m / 60 < 24) (by decide)
  have hminute : m % 60 < 60 := Nat.mod_lt m (by decide)
  have hsum : m / 60 * 60 + m % 60 = m := by omega
  have hdigits := Text.digits?_padded (Nat.lt_trans hminute (by decide : 60 < Nat.pow 10 2)) []
  rw [List.append_nil] at hdigits
  simp only [readOffset?, Text.digits?_padded hhour, hdigits, after?, bind, Option.bind, guard, if_true,
    Option.getD_some, hsum]
  rw [if_pos ⟨hminute, h, trivial⟩]
  rfl

/-- An offset is read back. -/
theorem readZone?_offsetText {offset : Option Int} (h : ∀ m ∈ offset, m.natAbs < 1440) :
    readZone? (offsetText offset) = some offset := by
  cases offset with
  | none => rfl
  | some m =>
    have hoffset := readOffset?_text (h m rfl)
    rw [offsetText, Option.map_some, Option.getD_some, Timestamp.signedOffset]
    by_cases hneg : m < 0
    · have hm : -(m.natAbs : Int) = m := by omega
      rw [if_pos hneg, List.cons_append, readZone?, hoffset]
      exact congrArg (fun k => some (some k)) hm
    · have hm : (m.natAbs : Int) = m := by omega
      rw [if_neg hneg, List.cons_append, readZone?, hoffset]
      exact congrArg (fun k => some (some k)) hm

theorem readZone?_zoneText {offset : Option Int} (h : ∀ m ∈ offset, m.natAbs < 1440) :
    readZone? (zoneText offset) = some offset := by
  unfold zoneText
  split
  · rename_i hzero
    rw [hzero]
    rfl
  · exact readZone?_offsetText h

end Parts

/-! ## Timestamps -/

namespace Timestamp

variable (t : Timestamp)

/-- The date of a timestamp is one that is accepted. -/
theorem isValid_date : t.date.IsValid :=
  isValid_ofDayNumber (Nat.div_lt_of_lt_mul (Nat.mul_comm _ _ ▸ t.clock_lt))

theorem clockText_eq : t.clockText = t.date.text ++ 'T' :: timeText (t.clock % dayLength) := by
  have hmicros : t.clock % dayLength % 1000000 = t.clock % 1000000 := by
    rw [dayLength]
    omega
  simp only [clockText, Date.text, timeText, hmicros, List.append_assoc, List.cons_append]

/-- The text of a timestamp is an ASCII text. -/
theorem isAscii_text : Text.IsAscii t.text.toList := by
  have hzone : Text.IsAscii (zoneText t.offset) := by
    unfold zoneText offsetText
    split
    · decide
    · cases t.offset with
      | none => nofun
      | some m => exact Text.isAscii_signedOffset m
  have hcolon := fun n => Text.IsAscii.cons (c := ':') (by decide) (Text.isAscii_padded 2 n)
  have htime : ∀ micros, Text.IsAscii (timeText micros) := fun micros =>
    (((Text.isAscii_padded 2 _).append (hcolon _)).append (hcolon _)).append (Text.isAscii_fractionText _)
  rw [text, String.toList_ofList, clockText_eq]
  exact ((isAscii_dateText _).append (.cons (by decide) (htime _))).append hzone

/-- The parts of a timestamp are read from its reading and an offset behind it that can be read. -/
theorem readParts?_clockText {zone : List Char} (hz : EndsSeconds zone) (hr : readZone? zone = some t.offset) :
    readParts? (t.clockText ++ zone) = some (t.date, t.clock % dayLength, t.offset) := by
  have htime : t.clock % dayLength < dayLength := Nat.mod_lt _ (by decide)
  rw [clockText_eq, List.append_assoc, List.cons_append]
  simp only [readParts?, readDate_text t.isValid_date, Except.toOption, bind, Option.bind, guard,
    true_or, if_true, readTimeOfDay?_text htime hz, hr]
  rfl

/-- The parts of a timestamp are read from its text. -/
theorem readParts?_text : readParts? t.text.toList = some (t.date, t.clock % dayLength, t.offset) := by
  rw [text, String.toList_ofList]
  exact t.readParts?_clockText (endsSeconds_zoneText _) (readZone?_zoneText t.offset_lt)

theorem readParts?_isoText : readParts? t.isoText.toList = some (t.date, t.clock % dayLength, t.offset) := by
  rw [isoText, String.toList_ofList]
  exact t.readParts?_clockText (endsSeconds_offsetText _) (readZone?_offsetText t.offset_lt)

/-- The date and the time of day give the reading. -/
theorem dayNumber_date : t.date.dayNumber * dayLength + t.clock % dayLength = t.clock := by
  rw [date, dayNumber_ofDayNumber, Nat.mul_comm]
  exact Nat.div_add_mod _ _

/-- A timestamp is read back from its text. -/
theorem ofText_text : ofText t.text = .ok t := by
  have hyear : ¬ t.date.year = 0 := Nat.ne_of_gt t.isValid_date.year_pos
  have hbounds : 0 ≤ (t.clock : Int) ∧ (t.clock : Int).toNat < clockLimit ∧ ∀ m ∈ t.offset, m.natAbs < 1440 :=
    ⟨Int.natCast_nonneg _, t.clock_lt, t.offset_lt⟩
  simp only [ofText, readParts?_text, ofParts, if_neg hyear, dayNumber_date, ofClock?, dif_pos hbounds]
  rfl

/-- The extended form tells timestamps apart, even those that denote one instant. -/
theorem isoText_injective {t u : Timestamp} (h : t.isoText = u.isoText) : t = u := by
  have hparts := t.readParts?_isoText
  rw [h, readParts?_isoText] at hparts
  obtain ⟨hdate, hrest⟩ := Prod.mk.inj (Option.some.inj hparts)
  obtain ⟨htime, hoffset⟩ := Prod.mk.inj hrest
  have hclock : t.clock = u.clock := by
    rw [← t.dayNumber_date, ← u.dayNumber_date, hdate, htime]
  obtain ⟨clock, offset, _, _⟩ := t
  obtain ⟨clock', offset', _, _⟩ := u
  obtain rfl : clock = clock' := hclock
  obtain rfl : offset' = offset := hoffset
  rfl

end Timestamp

end AccessPlan.Calendar
