import Footfall.Time.Date

/-!
Instants of universal time to the microsecond, counted from the start of the year 1, and
timestamps, which show the time on a wall clock and may say how far that clock is ahead.
-/

namespace Footfall

structure Instant where
  micros : Nat
  deriving DecidableEq, Repr, Inhabited

namespace Instant

def second : Nat := 1000000
def hour : Nat := 3600 * second
def dayLength : Nat := 24 * hour

/-- The start of the year 10000, which is the first instant out of range. -/
def limit : Nat := 3652059 * dayLength

def unixEpoch : Nat := 719162 * dayLength

instance : LE Instant := ⟨fun a b ↦ a.micros ≤ b.micros⟩
instance : LT Instant := ⟨fun a b ↦ a.micros < b.micros⟩
instance (a b : Instant) : Decidable (a ≤ b) := inferInstanceAs (Decidable (a.micros ≤ b.micros))
instance (a b : Instant) : Decidable (a < b) := inferInstanceAs (Decidable (a.micros < b.micros))

/-- The instant of a count of microseconds, when it is in range. -/
def ofMicros? (n : Int) : Option Instant :=
  if 0 ≤ n ∧ n < limit then some ⟨n.toNat⟩ else none

def shift? (t : Instant) (micros : Int) : Option Instant := ofMicros? (t.micros + micros)

def ofDate (d : Date) : Instant := ⟨d.number * dayLength⟩

def day (t : Instant) : Nat := t.micros / dayLength
def date (t : Instant) : Date := .ofNumber t.day

def sinceMidnight (t : Instant) : Nat := t.micros % dayLength

def hourOfDay (t : Instant) : Nat := t.sinceMidnight / hour
def minuteOfHour (t : Instant) : Nat := t.sinceMidnight / (60 * second) % 60
def secondOfMinute (t : Instant) : Nat := t.sinceMidnight / second % 60
def fraction (t : Instant) : Nat := t.micros % second

def midnight (t : Instant) : Instant := ⟨t.day * dayLength⟩

def endOfDay (t : Instant) : Instant := ⟨t.day * dayLength + (dayLength - 1000)⟩

theorem dayLength_eq : dayLength = 86400000000 := rfl

theorem day_endOfDay (t : Instant) : t.endOfDay.day = t.day := by
  unfold endOfDay day
  rw [dayLength_eq]
  dsimp only
  omega

theorem day_ofDate (d : Date) : (ofDate d).day = d.number := by
  unfold ofDate day
  rw [dayLength_eq]
  dsimp only
  omega

def clockText (t : Instant) : String :=
  padded 2 t.hourOfDay ++ ":" ++ padded 2 t.minuteOfHour ++ ":" ++ padded 2 t.secondOfMinute

def fullText (separator : String) (t : Instant) : String :=
  t.date.text ++ separator ++ t.clockText ++ "." ++ padded 6 t.fraction

/-- As the full text, but a fraction of zero is left out. -/
def briefText (separator : String) (t : Instant) : String :=
  t.date.text ++ separator ++ t.clockText ++
    (if t.fraction = 0 then "" else "." ++ padded 6 t.fraction)

def storedText (t : Instant) : String := t.fullText " "

end Instant

/-- A signed span of time as days and a time of day. -/
def spanText (micros : Int) : String :=
  let days := micros.fdiv Instant.dayLength
  let r := (micros.fmod Instant.dayLength).toNat
  let fraction := r % Instant.second
  (if days = 0 then "" else toString days ++ (if days.natAbs = 1 then " day, " else " days, ")) ++
    toString (r / Instant.hour) ++ ":" ++ padded 2 (r / (60 * Instant.second) % 60) ++ ":" ++
    padded 2 (r / Instant.second % 60) ++ (if fraction = 0 then "" else "." ++ padded 6 fraction)

/-- A time as a clock shows it. Without an offset the clock is taken to show universal time. -/
structure Timestamp where
  wall : Instant
  /-- How many microseconds the clock is ahead of universal time. -/
  offset : Option Int
  deriving DecidableEq, Repr, Inhabited

namespace Timestamp

def ofInstant (t : Instant) : Timestamp := ⟨t, some 0⟩

/-- The instant that the clock shows, unless it lies outside the calendar. -/
def toInstant? (t : Timestamp) : Option Instant :=
  match t.offset with
  | none => some t.wall
  | some o => t.wall.shift? (-o)

/-- The sign, hours and minutes of an offset, its seconds and fraction only when there are any. -/
def offsetText (o : Int) : String :=
  let n := o.natAbs
  let seconds := n / Instant.second % 60
  let fraction := n % Instant.second
  (if o < 0 then "-" else "+") ++ padded 2 (n / Instant.hour) ++ ":" ++
    padded 2 (n / (60 * Instant.second) % 60) ++
    (if seconds = 0 ∧ fraction = 0 then ""
     else ":" ++ padded 2 seconds ++ (if fraction = 0 then "" else "." ++ padded 6 fraction))

def isoText (separator : String) (t : Timestamp) : String :=
  t.wall.briefText separator ++ (match t.offset with | none => "" | some o => offsetText o)

@[simp] theorem toInstant?_naive (t : Instant) : toInstant? ⟨t, none⟩ = some t := rfl

end Timestamp

end Footfall
