import Footfall.Value.Basic
import Footfall.Number.Shortest
import Footfall.Text.Quoted

/-!
How messages show a value. A text may be shown as it is or quoted; inside a list or an object every
text is quoted.
-/

namespace Footfall.Value

def dateShown (d : Date) : String := s!"datetime.date({d.year}, {d.month}, {d.day})"

/-- A span as its days and seconds, parts that are zero left out. -/
def spanShown (micros : Int) : String :=
  let days := micros.fdiv Instant.dayLength
  let r := (micros.fmod Instant.dayLength).toNat
  let part (name : String) (n : Int) := if n = 0 then [] else [name ++ "=" ++ toString n]
  let parts := part "days" days ++ part "seconds" (r / Instant.second : Nat) ++
    part "microseconds" (r % Instant.second : Nat)
  "datetime.timedelta(" ++ (if parts.isEmpty then "0" else ", ".intercalate parts) ++ ")"

def timeShown (t : Timestamp) : String :=
  let d := t.wall.date
  let seconds :=
    if t.wall.fraction ≠ 0 then s!", {t.wall.secondOfMinute}, {t.wall.fraction}"
    else if t.wall.secondOfMinute ≠ 0 then s!", {t.wall.secondOfMinute}" else ""
  let zone := match t.offset with
    | none => ""
    | some 0 => ", tzinfo=datetime.timezone.utc"
    | some o => ", tzinfo=datetime.timezone(" ++ spanShown o ++ ")"
  s!"datetime.datetime({d.year}, {d.month}, {d.day}, {t.wall.hourOfDay}, {t.wall.minuteOfHour}" ++
    seconds ++ zone ++ ")"

mutual

def shown : Value → String
  | .null => "None"
  | .bool b => if b then "True" else "False"
  | .int n => toString n
  | .float x => x.text
  | .text s => Text.quoted s
  | .bytes bs => Text.quotedBytes bs
  | .date d => dateShown d
  | .time t => timeShown t
  | .list items => "[" ++ ", ".intercalate (shownList items) ++ "]"
  | .object fields => "\x7b" ++ ", ".intercalate (shownFields fields) ++ "\x7d"

def shownList : List Value → List String
  | [] => []
  | v :: rest => v.shown :: shownList rest

def shownFields : List (String × Value) → List String
  | [] => []
  | (k, v) :: rest => (Text.quoted k ++ ": " ++ v.shown) :: shownFields rest

end

/-- A value as plain text: only what stands inside a list or an object is quoted. -/
def plain : Value → String
  | .text s => s
  | .date d => d.text
  | .time t => t.isoText " "
  | v => v.shown

@[simp] theorem plain_text (s : String) : plain (.text s) = s := rfl

end Footfall.Value
