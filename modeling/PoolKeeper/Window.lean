import PoolKeeper.Fault
import PoolKeeper.Text.Blank
import PoolKeeper.Text.Quoted
import PoolKeeper.Time.Stamp

/-!
# `PoolKeeper/Window.lean` — maintenance windows

A window is a recurring interval of UTC during which disruptive work may start. Without a day it
repeats every day, with a day every week; it may wrap past midnight or past the end of the week, and
equal ends mean the whole period.

`Window.occurrenceStart?` gives the start of the occurrence that an instant lies in. Windows are kept
as a list in the operator's order, the first one that is open decides, and an empty list is always
open. The identifier of an occurrence is what the scheduler remembers to tell "the same window as
last time" from a new one.
-/

set_option autoImplicit false

namespace PoolKeeper

open Text

structure Window where
  name : Option String := none
  startDay : Option String := none
  startHour : UInt32
  startMinute : UInt32 := 0
  endDay : Option String := none
  endHour : UInt32
  endMinute : UInt32 := 0
deriving DecidableEq, Repr

namespace Window

inductive Defect where
  | hourOutOfRange
  | minuteOutOfRange
  | dayUnknown (text : String)
deriving DecidableEq, Repr

def Defect.message : Defect → String
  | hourOutOfRange => "hours must be in 0..=23"
  | minuteOutOfRange => "minutes must be in 0..=59"
  | dayUnknown text => "invalid day " ++ quoted text

/-- The weekday that an operator's text names, blanks around it apart. -/
def readDay (text : String) : Except Defect Weekday :=
  match Weekday.ofName? (trim text) with
  | some day => .ok day
  | none => .error (.dayUnknown text)

/-- Whether the optional day, if given, is one. -/
def checkDay : Option String → Except Defect Unit
  | none => .ok ()
  | some text => (readDay text).map fun _ => ()

def validate (w : Window) : Except Defect Unit := do
  if w.startHour > 23 || w.endHour > 23 then throw .hourOutOfRange
  if w.startMinute > 59 || w.endMinute > 59 then throw .minuteOutOfRange
  checkDay w.startDay
  checkDay w.endDay

def minutesPerDay : Nat := 1440

def minutesPerWeek : Nat := 7 * minutesPerDay

/-- When a window opens and closes, in minutes of its period. -/
structure Bounds where
  period : Nat
  opens : Nat
  closes : Nat
deriving DecidableEq, Repr

def bounds (w : Window) : Except Defect Bounds := do
  -- In 32 bits: a window that was never validated has bounds too, and they wrap.
  let opens := (w.startHour * 60 + w.startMinute).toNat
  let closes := (w.endHour * 60 + w.endMinute).toNat
  match w.startDay, w.endDay with
  | none, none => .ok ⟨minutesPerDay, opens, closes⟩
  | some s, e => do
    let first ← readDay s
    let last ← match e with
      | some e => readDay e
      | none => .ok first
    .ok (weekly first last opens closes)
  -- The day that is missing is the other one.
  | none, some e => do
    let day ← readDay e
    .ok (weekly day day opens closes)
where
  weekly (first last : Weekday) (opens closes : Nat) : Bounds :=
    ⟨minutesPerWeek, first.index * minutesPerDay + opens, last.index * minutesPerDay + closes⟩

namespace Bounds

/-- How long the window stays open, in minutes: to the next close, at most one period. -/
def length (b : Bounds) : Nat :=
  let n := (((b.closes : Int) - b.opens) % b.period).toNat
  if n = 0 then b.period else n

/-- Minutes of the period that have passed at an instant. -/
def position (b : Bounds) (t : Instant) : Nat :=
  if b.period = minutesPerWeek then t.weekday * minutesPerDay + t.minuteOfDay else t.minuteOfDay

/-- Minutes since the window last opened. -/
def elapsed (b : Bounds) (t : Instant) : Nat := (((b.position t : Int) - b.opens) % b.period).toNat

end Bounds

def occurrenceStart? (w : Window) (t : Instant) : Option Instant :=
  match w.bounds with
  | .error _ => none
  | .ok b =>
    if b.elapsed t < b.length then some (t.minuteFloor.minusMinutes (b.elapsed t)) else none

/-- What an occurrence of the window at position `i` of the list is called. -/
def label (i : Nat) (w : Window) : String :=
  w.name.getD ("window-" ++ String.ofList (decimal i))

/-- The identifier of the first window from position `i` on that is open. -/
def firstOpen? (t : Instant) : Nat → List Window → Option String
  | _, [] => none
  | i, w :: ws =>
    match w.occurrenceStart? t with
    | some start => some (w.label i ++ "@" ++ start.minuteText)
    | none => firstOpen? t (i + 1) ws

/-- The identifier of the occurrence that is open at the instant. -/
def active? (ws : List Window) (t : Instant) : Option String :=
  if ws.isEmpty then some ("always@" ++ t.dayText) else firstOpen? t 0 ws

end Window

end PoolKeeper
