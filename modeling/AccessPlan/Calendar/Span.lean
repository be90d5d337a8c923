import AccessPlan.Calendar.Timestamp
import AccessPlan.Json.Basic

/-!
# Spans of days

A number of days is whole or has a fraction. Whole numbers of units are turned into microseconds exactly; of a number
with a fraction, the part behind the point is multiplied as a double precision number and the sum is rounded to the
nearest microsecond, a tie going to the even one.

* `exactMicros?_whole`: the span of a whole number of units is exact.
-/

namespace AccessPlan.Calendar

/-- A number of days, or of other units of time. -/
inductive Amount where
  | whole (n : Int)
  | fractional (x : Binary64)
  deriving DecidableEq, Repr

/-- Why a span or a date does not exist. -/
inductive RangeFault where
  /-- A date outside of the years 1 to 9999. -/
  | date
  /-- A span of more days than are counted. -/
  | span (days : Int)
  /-- A span without end. -/
  | endless
  deriving DecidableEq, Repr

namespace Amount

/-- The amount that a number is; `true` and `false` count as one and zero. -/
def ofJson? : Json → Option Amount
  | .bool b => some (.whole (if b then 1 else 0))
  | .int n => some (.whole n)
  | .float x => some (.fractional x)
  | _ => none

/-- The exact value; there is none for what is not finite. -/
def value? : Amount → Option Rat
  | whole n => some n
  | fractional x => x.value?

/-- The amount in units of which `count` make one. -/
def inUnits (count : Nat) : Amount → Amount
  | whole n => whole (n * count)
  | fractional x => fractional (x.scale count)

/-- The microseconds of so many units that are `unit` microseconds long. -/
def exactMicros? (unit : Nat) : Amount → Option Int
  | whole n => some (n * unit)
  | fractional x => x.value?.map fun q =>
    let part := ((Binary64.ofRat (q.abs - q.abs.floor)).scale unit).value?.getD 0
    let size := Binary64.roundEven (q.abs.floor * unit + part)
    if q < 0 then -size else size

/-- The greatest number of whole days of a span. -/
def greatestDays : Int := 999999999

/-- The microseconds of so many units, if that span is not too long. -/
def micros (unit : Nat) (a : Amount) : Except RangeFault Int :=
  match a.exactMicros? unit with
  | none => .error .endless
  | some span =>
    let days := span / dayLength
    if days.natAbs ≤ greatestDays then .ok span else .error (.span days)

/-- The span of a whole number of units is exact. -/
theorem exactMicros?_whole (unit : Nat) (n : Int) : (whole n).exactMicros? unit = some (n * unit) := rfl

end Amount

/-- The timestamp after a span. -/
def Timestamp.later (t : Timestamp) (span : Int) : Except RangeFault Timestamp :=
  match t.add? span with
  | some u => .ok u
  | none => .error .date

namespace Timestamp

variable {t u : Timestamp} {span : Int}

theorem later_eq_ok_iff : t.later span = .ok u ↔ t.add? span = some u := by
  unfold later
  cases t.add? span <;> simp

theorem exists_later_iff :
    (∃ u, t.later span = .ok u) ↔ 0 ≤ t.clock + span ∧ t.clock + span < clockLimit := by
  by_cases h : 0 ≤ t.clock + span ∧ t.clock + span < clockLimit
  · exact iff_of_true ⟨_, later_eq_ok_iff.2 (dif_pos h)⟩ h
  · have hnone : t.add? span = none := dif_neg h
    simp [later_eq_ok_iff, hnone, h]

theorem instant_later (h : t.later span = .ok u) : u.instant = t.instant + span := instant_add? (later_eq_ok_iff.1 h)

theorem offset_later (h : t.later span = .ok u) : u.offset = t.offset := offset_add? (later_eq_ok_iff.1 h)

end Timestamp

end AccessPlan.Calendar
