import Kafkaman.Core.Basic

/-!
# Core.Calendar — the instants an `OffsetDateTime` can hold

The years -9999 to 9999.  Adding a wait to an instant, taking one away and changing its offset all
panic where the result lies outside.
-/

namespace Kafkaman

def nanosPerSecond : Nat := 1000000000

/-- The leap years before `year`, counted from year one. -/
def leapYearsBefore (year : Int) : Int :=
  (year - 1) / 4 - (year - 1) / 100 + (year - 1) / 400

/-- The first instant of a year, in nanoseconds from the start of 1970. -/
def yearStart (year : Int) : Int :=
  let days := 365 * (year - 1970) + (leapYearsBefore year - leapYearsBefore 1970)
  days * 86400 * nanosPerSecond

def firstInstant : Int :=
  yearStart (-9999)

def lastInstant : Int :=
  yearStart 10000 - 1

def i64Max : Nat := 2 ^ 63 - 1

/-- `duration_to_time`, in nanoseconds on both sides. -/
def durationToTime (duration : Nat) : Nat :=
  min (duration / nanosPerSecond) i64Max * nanosPerSecond + duration % nanosPerSecond

theorem durationToTime_of_lt {duration : Nat} (h : duration < 2 ^ 63 * nanosPerSecond) :
    durationToTime duration = duration := by
  have hsecs : duration / nanosPerSecond ≤ i64Max :=
    Nat.le_sub_one_of_lt (Nat.div_lt_of_lt_mul (by rwa [Nat.mul_comm]))
  rw [durationToTime, Nat.min_eq_left hsecs, Nat.mul_comm]
  exact Nat.div_add_mod duration nanosPerSecond

theorem le_durationToTime {duration : Nat} (h : 2 ^ 63 * nanosPerSecond ≤ duration) :
    i64Max * nanosPerSecond ≤ durationToTime duration := by
  have hsecs : i64Max ≤ duration / nanosPerSecond :=
    (Nat.sub_le _ _).trans ((Nat.le_div_iff_mul_le (by decide)).2 h)
  rw [durationToTime, Nat.min_eq_right hsecs]
  exact Nat.le_add_right _ _

end Kafkaman
