import Footfall.Query.Filters
import Footfall.Report.Query

/-!
Buckets of a time series and their labels. A pattern lists the parts of a label; each dialect writes
the parts in its own way. An embedded store rounds the time of day to milliseconds when it looks for
the day of the week, so that the last instants of a day count for the next one there.
-/

namespace Footfall

inductive LabelPart
  | year
  | isoYear
  | month
  | day
  | hour
  | weekOfYear
  | isoWeek
  | mark (s : String)
  | letters (s : String)
  deriving DecidableEq, Repr

namespace Instant

def realSeconds (t : Instant) : Double :=
  (Double.ofInt t.secondOfMinute).add ((Double.ofInt t.fraction).div (Double.ofInt second))

/-- The time of day in milliseconds as an embedded store rounds it. -/
def storedMillis (t : Instant) : Int :=
  let millis := (t.realSeconds.mul (Double.ofInt 1000)).add (Double.ofDecimal false 5 (-1))
  (60 * t.hourOfDay + t.minuteOfHour) * 60000 + millis.truncate?.getD 0

def dayMillis : Int := 86400000

def storedDay (t : Instant) : Nat := if t.storedMillis < dayMillis then t.day else t.day + 1

/-- The number of the week of the year, for which an embedded store counts the days as they are but
takes the day of the week from the day on which it sees the instant. -/
def storedWeek (t : Instant) : Nat :=
  ((Date.splitYear t.day).2 + 7 - Date.weekday t.storedDay) / 7

end Instant

namespace LabelPart

def label (t : Instant) : LabelPart → String
  | .year => padded 4 t.date.year
  | .isoYear => padded 4 (Date.isoYear t.day)
  | .month => padded 2 t.date.month
  | .day => padded 2 t.date.day
  | .hour => padded 2 t.hourOfDay
  | .weekOfYear => padded 2 (Date.weekOfYear t.day)
  | .isoWeek => padded 2 (Date.isoWeek t.day)
  | .mark s | .letters s => s

def storedLabel (t : Instant) : LabelPart → String
  | .weekOfYear => padded 2 t.storedWeek
  | p => p.label t

def embeddedPattern : LabelPart → String
  | .year => "%Y"
  | .isoYear => "%G"
  | .month => "%m"
  | .day => "%d"
  | .hour => "%H"
  | .weekOfYear => "%W"
  | .isoWeek => "%V"
  | .mark s | .letters s => s

/-- The part in a pattern of the server, where letters stand in quotes. -/
def serverPattern : LabelPart → String
  | .year => "YYYY"
  | .isoYear => "IYYY"
  | .month => "MM"
  | .day => "DD"
  | .hour => "HH24"
  | .weekOfYear => "WW"
  | .isoWeek => "IW"
  | .mark s => s
  | .letters s => "\"" ++ s ++ "\""

end LabelPart

namespace Granularity

def parts (d : Report.Dialect) : Granularity → List LabelPart
  | .hour => [.year, .mark "-", .month, .mark "-", .day, .mark " ", .hour, .mark ":00:00"]
  | .day => [.year, .mark "-", .month, .mark "-", .day]
  | .week =>
    match d with
    | .sqlite => [.year, .mark "-", .letters "W", .weekOfYear]
    | .postgresql => [.isoYear, .mark "-", .letters "W", .isoWeek]
  | .month => [.year, .mark "-", .month]

def pattern (d : Report.Dialect) (g : Granularity) : String :=
  String.join ((g.parts d).map
    (match d with | .sqlite => LabelPart.embeddedPattern | .postgresql => LabelPart.serverPattern))

def labelIn (d : Report.Dialect) (g : Granularity) (t : Instant) : String :=
  String.join ((g.parts d).map (LabelPart.label t))

def label (g : Granularity) (t : Instant) : String := g.labelIn .sqlite t

/-- The label that an embedded store gives a row; an instant that it sees after the last day of the
calendar has none. -/
def storedLabel (g : Granularity) (t : Instant) : Option String :=
  if t.storedDay * Instant.dayLength < Instant.limit then
    some (String.join ((g.parts .sqlite).map (LabelPart.storedLabel t)))
  else none

def sql (d : Report.Dialect) (g : Granularity) : String :=
  match d with
  | .sqlite => "strftime('" ++ g.pattern d ++ "', site_events.created_at)"
  | .postgresql => "to_char(site_events.created_at, '" ++ g.pattern d ++ "')"

/-- The dialect of a store; all but the server use the embedded one. -/
def dialectOf (name : String) : Report.Dialect :=
  if name = "postgresql" then .postgresql else .sqlite

end Granularity

end Footfall
