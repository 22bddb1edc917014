import PoolKeeper.Time.Calendar

/-!
# `PoolKeeper/Time/Instant.lean` — points in time

An `Instant` is a count of seconds since 1970-01-01T00:00:00Z and nanoseconds on top. A leap second
has no place of its own on that line: it is the second before it with a further thousand million
nanoseconds, so `nanos` runs up to (but not including) two thousand million. The readers accept it
as second 60 and the writers give it back that way.

Times of day, weekdays and dates are all in UTC.
-/

set_option autoImplicit false

namespace PoolKeeper

def nanosPerSecond : Nat := 1000000000

structure Instant where
  /-- Seconds since 1970-01-01T00:00:00Z, leap seconds not counted. -/
  seconds : Int
  /-- Nanoseconds into the second; from a thousand million on, into the leap second after it. -/
  nanos : Nat
deriving DecidableEq, Repr

namespace Instant

/-- The day, counted from 1970-01-01. -/
def days (t : Instant) : Int := t.seconds / 86400

def secondOfDay (t : Instant) : Nat := (t.seconds % 86400).toNat

def minuteOfDay (t : Instant) : Nat := t.secondOfDay / 60

def hour (t : Instant) : Nat := t.secondOfDay / 3600

def minute (t : Instant) : Nat := t.secondOfDay / 60 % 60

def isLeap (t : Instant) : Bool := nanosPerSecond ≤ t.nanos

/-- The second of the minute, 60 in a leap second. -/
def second (t : Instant) : Nat := t.secondOfDay % 60 + (if t.isLeap then 1 else 0)

/-- Nanoseconds of the second as it is written. -/
def fraction (t : Instant) : Nat := if t.isLeap then t.nanos - nanosPerSecond else t.nanos

def date (t : Instant) : Date := Date.ofDays t.days

def weekday (t : Instant) : Nat := weekdayIndex t.days

/-- The years that instants are kept in. -/
def firstYear : Int := -262143
@[inherit_doc firstYear]
def lastYear : Int := 262142

def isDayInRange (days : Int) : Bool :=
  (Date.mk firstYear 1 1).toDays ≤ days && days ≤ (Date.mk lastYear 12 31).toDays

/-- Whether the instant can come from text: its day is in range, and it lies in a leap second only
at the end of a minute. -/
def isRepresentable (t : Instant) : Bool :=
  isDayInRange t.days && (t.nanos < nanosPerSecond
    || (t.nanos < 2 * nanosPerSecond && t.secondOfDay % 60 == 59))

def minuteFloor (t : Instant) : Instant := ⟨t.seconds - (t.secondOfDay % 60 : Nat), 0⟩

/-- The instant `minutes` earlier; exact, as long as `t` does not lie in a leap second. -/
def minusMinutes (t : Instant) (minutes : Nat) : Instant := ⟨t.seconds - 60 * minutes, t.nanos⟩

/-- The instant `k` seconds later. A leap second is left towards the side that `k` points to. -/
def plusSeconds (t : Instant) (k : Int) : Instant :=
  if t.isLeap && k > 0 then ⟨t.seconds + k, t.nanos - nanosPerSecond⟩
  else if t.isLeap && k < 0 then ⟨t.seconds + 1 + k, t.nanos - nanosPerSecond⟩
  else ⟨t.seconds + k, t.nanos⟩

/-- Nanoseconds from `b` to `a`. A leap second that one of the two lies in counts if it lies
between their times of day. -/
def since (a b : Instant) : Int :=
  let leap : Int :=
    if a.secondOfDay > b.secondOfDay && b.isLeap then 1
    else if a.secondOfDay < b.secondOfDay && a.isLeap then -1
    else 0
  (a.seconds - b.seconds + leap) * nanosPerSecond + a.nanos - b.nanos

def ofDate (d : Date) (secondOfDay nanos : Nat) : Instant := ⟨d.toDays * 86400 + secondOfDay, nanos⟩

end Instant

end PoolKeeper
