import Footfall.Number.Double
import Footfall.Text.Digit
import Footfall.Time.Instant

/-!
Reading dates and times. There are three readers: of calendar dates in the forms of the standard,
of timestamps in its extended form, and of loosely written timestamps, where a count of seconds or
milliseconds since 1970 is also understood.
-/

namespace Footfall

namespace Time

def digit? (c : Char) : Option Nat := if c.isDigit then some (c.toNat - 48) else none

def digits? : Nat → List Char → Option (Nat × List Char)
  | 0, cs => some (0, cs)
  | n + 1, c :: cs => do
    let d ← digit? c
    let (r, rest) ← digits? n cs
    some (d * 10 ^ n + r, rest)
  | _ + 1, [] => none

/-- Whether a text is four digits, two digits and two digits, joined by hyphens. -/
def isDateForm (cs : List Char) : Bool :=
  match cs with
  | [a, b, c, d, '-', e, f, '-', g, h] => [a, b, c, d, e, f, g, h].all Char.isDigit
  | _ => false

inductive DateFault
  | year (n : Nat)
  | month
  | day
  deriving DecidableEq, Repr

/-- What is wrong with a date of three numbers, the first fault from the left. -/
def checkDate (d : Date) : Except DateFault Date :=
  if d.year < 1 ∨ 9999 < d.year then .error (.year d.year)
  else if d.month < 1 ∨ 12 < d.month then .error .month
  else if d.day < 1 ∨ Date.monthLength d.year d.month < d.day then .error .day
  else .ok d

def DateFault.message : DateFault → String
  | .year n => s!"year {n} is out of range"
  | .month => "month must be in 1..12"
  | .day => "day is out of range for month"

def dateParts? (cs : List Char) : Option Date := do
  let (y, cs) ← digits? 4 cs
  let (m, cs) ← digits? 2 (cs.drop 1)
  let (d, _) ← digits? 2 (cs.drop 1)
  some ⟨y, m, d⟩

/-- Reads a date of the form year, month and day with hyphens. -/
def readDate? (cs : List Char) : Option (Except DateFault Date) :=
  if isDateForm cs then (dateParts? cs).map checkDate else none

/-- The date of a weekday, counted from 1, in a numbered week. -/
def ofWeek? (year week weekday : Nat) : Option Date :=
  if year < 1 ∨ 9999 < year ∨ week < 1 ∨ 53 < week ∨ weekday < 1 ∨ 7 < weekday then none
  else
    let first := Date.yearStart year
    let start : Int :=
      if Date.weekday first ≤ 3 then (first : Int) - Date.weekday first
      else first + 7 - Date.weekday first
    let n := start + 7 * (week - 1) + (weekday - 1)
    let longYear := Date.weekday first == 3 || (Date.weekday first == 2 && Date.isLeap year)
    if week = 53 ∧ !longYear then none
    else if n < 0 ∨ 3652059 ≤ n then none
    else some (.ofNumber n.toNat)

/-- The front of a text when it is the given mark, or the text itself when no mark is asked for. -/
def skipMark (asked : Bool) : List Char → Option (List Char)
  | cs@(c :: rest) => if asked then (if c = '-' then some rest else none) else some cs
  | [] => if asked then none else some []

/-- Reads a date in one of the forms of the standard: with or without hyphens, by month and day or
by week and weekday, the weekday being the first when it is missing. The text has to take seven,
eight or ten bytes; what it holds behind the date counts for nothing. -/
def readIsoDate? (size : Nat) (cs : List Char) : Option Date := do
  if !(size == 7 || size == 8 || size == 10) then failure
  let (year, rest) ← digits? 4 cs
  let hyphen := rest.head? == some '-'
  match rest.drop (if hyphen then 1 else 0) with
  | 'W' :: rest =>
    let (week, rest) ← digits? 2 rest
    if rest.isEmpty then ofWeek? year week 1
    else do
      let (weekday, _) ← digits? 1 (← skipMark hyphen rest)
      ofWeek? year week weekday
  | rest =>
    let (month, rest) ← digits? 2 rest
    let (day, _) ← digits? 2 (← skipMark hyphen rest)
    (checkDate ⟨year, month, day⟩).toOption

def millionths (ds : List Char) : Nat :=
  Text.natural ((ds ++ List.replicate 6 '0').take 6)

def ofClock (h m s fraction : Nat) : Nat := ((h * 60 + m) * 60 + s) * Instant.second + fraction

/-- Seconds and their fraction, each of which may be missing; a fraction follows one of the given
marks. -/
def readSeconds? (marks : List Char) (cs : List Char) : Option (Nat × Nat × List Char) :=
  match cs with
  | ':' :: rest => do
    let (s, rest) ← digits? 2 rest
    match rest with
    | c :: after =>
      if c ∈ marks then
        let ds := after.takeWhile Char.isDigit
        if ds.isEmpty then none else some (s, millionths ds, after.dropWhile Char.isDigit)
      else some (s, 0, rest)
    | [] => some (s, 0, [])
  | rest => some (0, 0, rest)

def readClock? (marks : List Char) (cs : List Char) : Option (Nat × List Char) := do
  let (h, rest) ← digits? 2 cs
  match rest with
  | ':' :: rest =>
    let (m, rest) ← digits? 2 rest
    let (s, fraction, rest) ← readSeconds? marks rest
    if h ≤ 23 ∧ m ≤ 59 ∧ s ≤ 59 then some (ofClock h m s fraction, rest) else none
  | _ => none

/-- An offset with colons, whose seconds and fraction may be missing. -/
def readLongOffset? (cs : List Char) : Option (Option Int) :=
  match cs with
  | [] => some none
  | ['Z'] => some (some 0)
  | c :: rest => do
    let negative ← if c = '+' then some false else if c = '-' then some true else none
    match ← readClock? ['.'] rest with
    | (n, []) => some (some (Text.signed negative n))
    | _ => none

def readTimestamp? (cs : List Char) : Option Timestamp := do
  let date ← (← readDate? (cs.take 10)).toOption
  match cs.drop 10 with
  | [] => some ⟨.ofDate date, none⟩
  | _ :: rest =>
    let (clock, rest) ← readClock? ['.'] rest
    some ⟨⟨(Instant.ofDate date).micros + clock⟩, ← readLongOffset? rest⟩

/-- Why a text is not a date. -/
inductive Refusal
  | tooShort
  | yearCharacter
  | monthCharacter
  | dayCharacter
  | separator
  | monthRange
  | dayRange
  | extraCharacters
  | tooLate
  | tooEarly
  deriving DecidableEq, Repr

def Refusal.message : Refusal → String
  | .tooShort => "input is too short"
  | .yearCharacter => "invalid character in year"
  | .monthCharacter => "invalid character in month"
  | .dayCharacter => "invalid character in day"
  | .separator => "invalid date separator, expected \x60-\x60"
  | .monthRange => "month value is outside expected range of 1-12"
  | .dayRange => "day value is outside expected range"
  | .extraCharacters => "unexpected extra characters at the end of the input"
  | .tooLate => "dates after 9999 are not supported as unix timestamps"
  | .tooEarly => "dates before 0000 are not supported as unix timestamps"

/-- Seconds at the start of the year 0 and at the end of the year 9999, counted from 1970. -/
def earliest : Int := -62167219200
def latest : Int := 253402300799

/-- A civil time whose year may be 0, as microseconds from the start of the year 1. -/
structure Moment where
  wall : Int
  offset : Option Int
  deriving DecidableEq, Repr

def watershed : Int := 20000000000

/-- The moment a number of microseconds after 1970, told apart by whole seconds. -/
def ofMicros (micros : Int) : Except Refusal Moment :=
  let seconds := micros.fdiv 1000000
  if seconds < earliest then .error .tooEarly
  else if latest < seconds then .error .tooLate
  else .ok ⟨micros + Instant.unixEpoch, some 0⟩

/-- The moment a whole number of seconds, or of milliseconds if large, after 1970. -/
def ofUnix (n : Int) : Except Refusal Moment :=
  ofMicros (if n.natAbs ≤ watershed.natAbs then n * 1000000 else n * 1000)

/-- Microseconds from a number that counts units of so many microseconds. The whole number below is
exact; what is left is scaled and then rounded. -/
def scaled (x : Double) (unit : Int) : Int :=
  let below := x.floor?.getD 0
  let fraction := (x.add (Double.ofInt (-below))).mul (Double.ofInt unit)
  below * unit + fraction.nearest?.getD 0

/-- The moment a number of seconds, or of milliseconds if large, after 1970. -/
def ofReal (x : Double) : Except Refusal Moment :=
  let bound := Double.ofInt watershed
  ofMicros (scaled x (if bound.lt x || x.lt bound.neg then 1000 else 1000000))

def digitOr (fault : Refusal) : List Char → Except Refusal (Nat × List Char)
  | c :: rest => match digit? c with
    | some d => .ok (d, rest)
    | none => .error fault
  | [] => .error fault

def numberOr (fault : Refusal) : Nat → List Char → Except Refusal (Nat × List Char)
  | 0, cs => .ok (0, cs)
  | n + 1, cs => do
    let (d, rest) ← digitOr fault cs
    let (r, rest) ← numberOr fault n rest
    return (d * 10 ^ n + r, rest)

def hyphen : List Char → Except Refusal (List Char)
  | '-' :: rest => .ok rest
  | _ => .error .separator

/-- Day number of a real date, whose year may be 0. -/
def dayNumber (year month day : Nat) : Int :=
  if year = 0 then (Date.dayOfYear ⟨0, month, day⟩ : Int) - 366
  else Date.number ⟨year, month, day⟩

/-- Reads the date at the front of a text; the length is checked before anything else. -/
def dateFront (size : Nat) (cs : List Char) : Except Refusal (Int × List Char) := do
  if size < 10 then throw .tooShort
  let (year, rest) ← numberOr .yearCharacter 4 cs
  let (month, rest) ← numberOr .monthCharacter 2 (← hyphen rest)
  let (day, rest) ← numberOr .dayCharacter 2 (← hyphen rest)
  if month < 1 ∨ 12 < month then throw .monthRange
  if day < 1 ∨ Date.monthLength year month < day then throw .dayRange
  return (dayNumber year month day, rest)

/-- The offset at the end: `Z`, or a sign with hours and minutes, less than a day in all. -/
def readShortOffset? (cs : List Char) : Option (Option Int) :=
  match cs with
  | [] => some none
  | ['Z'] | ['z'] => some (some 0)
  | c :: rest => do
    let negative ←
      if c = '+' then some false else if c = '-' ∨ c = '\u2212' then some true else none
    let (h, rest) ← digits? 2 rest
    let rest := match rest with
      | ':' :: rest => rest
      | rest => rest
    match ← digits? 2 rest with
    | (m, []) =>
      if m ≤ 59 ∧ h ≤ 23 then
        let n := ofClock h m 0 0
        some (some (Text.signed negative n))
      else none
    | _ => none

def readTail? (cs : List Char) : Option (Nat × Option Int) :=
  match cs with
  | c :: rest =>
    if c ∈ ['T', 't', ' ', '_'] then do
      let (clock, rest) ← readClock? ['.', ','] rest
      some (clock, ← readShortOffset? rest)
    else none
  | [] => none

/-- A whole number of 64 bits, or a decimal. -/
inductive Count
  | whole (n : Int)
  | decimal (x : Double)

/-- A number in decimal without exponent, with a digit on at least one side of the point. -/
def readCount? (cs : List Char) : Option Count :=
  let (negative, body) := match cs with
    | '-' :: rest => (true, rest)
    | '+' :: rest => (false, rest)
    | rest => (false, rest)
  let whole := body.takeWhile Char.isDigit
  let n := Text.signed negative (Text.natural whole)
  if decide (n < -0x8000000000000000) || decide (0x8000000000000000 ≤ n) then none
  else
    match body.dropWhile Char.isDigit with
    | [] => if whole.isEmpty then none else some (.whole n)
    | '.' :: rest =>
      if rest.all Char.isDigit && !(whole.isEmpty && rest.isEmpty) then
        some (.decimal (Double.ofDecimal negative (Text.natural (whole ++ rest)) (-rest.length)))
      else none
    | _ => none

/-- Reads a loosely written timestamp of a known size in bytes: a date with or without a time of
day, or a count of seconds. When nothing fits, the refusal is that of the text as a date. -/
def readMoment (size : Nat) (cs : List Char) : Except Refusal Moment :=
  match dateFront size cs with
  | .ok (n, []) => .ok ⟨n * Instant.dayLength, none⟩
  | .ok (n, rest) =>
    match readTail? rest with
    | some (clock, offset) => .ok ⟨n * Instant.dayLength + clock, offset⟩
    | none => .error .extraCharacters
  | .error fault =>
    match readCount? cs with
    | some (.whole n) => ofUnix n
    | some (.decimal x) => (ofReal x).mapError fun _ ↦ fault
    | none => .error fault

end Time

end Footfall
