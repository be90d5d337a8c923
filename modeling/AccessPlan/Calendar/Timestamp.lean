import AccessPlan.Calendar.Date
import AccessPlan.Text.Numeral

/-!
# Timestamps

A timestamp is the reading of a local clock, in microseconds since the start of year 1, with the offset of that clock
from Coordinated Universal Time where it is known. Arithmetic moves the local clock and keeps the offset; comparison
is by the instant, for which a clock of unknown offset is read as Coordinated Universal Time.

* `instant_asUtc`: stating the offset of a clock that had none keeps the instant.
* `instant_add?`: adding a span moves the instant by that span.
-/

namespace AccessPlan.Calendar

/-- The microseconds of a minute, of an hour and of a day. -/
def minuteLength : Nat := 60000000

def hourLength : Nat := 3600000000

def dayLength : Nat := 86400000000

/-- The first reading after the last day of the calendar. -/
def clockLimit : Nat := dayLimit * dayLength

/-- A reading of a local clock, and how many minutes that clock is ahead of Coordinated Universal Time. -/
structure Timestamp where
  clock : Nat
  offset : Option Int
  clock_lt : clock < clockLimit
  offset_lt : ∀ m ∈ offset, m.natAbs < 1440
  deriving DecidableEq

namespace Timestamp

/-- The first instant of year 1. -/
def earliest : Timestamp := ⟨0, some 0, by decide, by decide⟩

instance : Inhabited Timestamp := ⟨earliest⟩

/-- The timestamp of a reading and an offset that are in range. -/
def ofClock? (clock : Int) (offset : Option Int) : Option Timestamp :=
  if h : 0 ≤ clock ∧ clock.toNat < clockLimit ∧ ∀ m ∈ offset, m.natAbs < 1440 then
    some ⟨clock.toNat, offset, h.2.1, h.2.2⟩
  else none

/-- Microseconds in Coordinated Universal Time since the start of year 1. -/
def instant (t : Timestamp) : Int := t.clock - t.offset.getD 0 * minuteLength

/-- The same reading; a clock of unknown offset becomes one of Coordinated Universal Time. -/
def asUtc (t : Timestamp) : Timestamp :=
  { t with
    offset := some (t.offset.getD 0)
    offset_lt := by
      intro m hm
      cases h : t.offset with
      | none =>
        obtain rfl : 0 = m := by simpa [h] using hm
        decide
      | some o =>
        obtain rfl : o = m := by simpa [h] using hm
        exact t.offset_lt o h }

/-- The reading `span` microseconds later; `none` outside of the years 1 to 9999. -/
def add? (t : Timestamp) (span : Int) : Option Timestamp :=
  let later := t.clock + span
  if h : 0 ≤ later ∧ later < clockLimit then
    some ⟨later.toNat, t.offset, by omega, t.offset_lt⟩
  else none

/-- Whether two timestamps denote one instant. -/
def sameInstant (s t : Timestamp) : Bool := s.instant == t.instant

/-! ## Text -/

/-- The date of a reading. -/
def date (t : Timestamp) : Date := .ofDayNumber (t.clock / dayLength)

/-- The digits of microseconds after a point, or nothing if there are none. -/
def fractionText (micros : Nat) : List Char :=
  if micros = 0 then [] else '.' :: Text.padded 6 micros

/-- A reading as date and time. -/
def clockText (t : Timestamp) : List Char :=
  let seconds := t.clock % dayLength / 1000000
  Text.padded 4 t.date.year ++ '-' :: Text.padded 2 t.date.month ++ '-' :: Text.padded 2 t.date.day ++
    'T' :: Text.padded 2 (seconds / 3600) ++ ':' :: Text.padded 2 (seconds / 60 % 60) ++
    ':' :: Text.padded 2 (seconds % 60) ++ fractionText (t.clock % 1000000)

/-- An offset with its sign, hours and minutes. -/
def signedOffset (minutes : Int) : List Char :=
  (if minutes < 0 then '-' else '+') :: Text.padded 2 (minutes.natAbs / 60) ++
    ':' :: Text.padded 2 (minutes.natAbs % 60)

/-- The extended form: date, time and offset. -/
def isoText (t : Timestamp) : String :=
  String.ofList (t.clockText ++ (t.offset.map signedOffset).getD [])

/-- The form used in documents: as the extended form, with `Z` for a clock of Coordinated Universal Time. -/
def text (t : Timestamp) : String :=
  String.ofList (t.clockText ++ if t.offset = some 0 then ['Z'] else (t.offset.map signedOffset).getD [])

/-! ## Instants -/

/-- Stating the offset of a clock that had none keeps the instant. -/
@[simp] theorem instant_asUtc (t : Timestamp) : t.asUtc.instant = t.instant := rfl

/-- Adding a span moves the instant by that span. -/
theorem instant_add? {t u : Timestamp} {span : Int} (h : t.add? span = some u) : u.instant = t.instant + span := by
  unfold add? at h
  dsimp only at h
  split at h
  · obtain rfl := Option.some.inj h
    simp only [instant]
    omega
  · cases h

theorem offset_add? {t u : Timestamp} {span : Int} (h : t.add? span = some u) : u.offset = t.offset := by
  unfold add? at h
  dsimp only at h
  split at h
  · obtain rfl := Option.some.inj h
    rfl
  · cases h

/-- A clock of one offset shows one instant in one way. -/
theorem eq_of_instant {t u : Timestamp} (hi : t.instant = u.instant) (ho : t.offset = u.offset) : t = u := by
  obtain ⟨clock, offset, _, _⟩ := t
  obtain ⟨clock', offset', _, _⟩ := u
  obtain rfl : offset = offset' := ho
  obtain rfl : clock = clock' := by
    simp only [instant] at hi
    omega
  rfl

end Timestamp

end AccessPlan.Calendar
