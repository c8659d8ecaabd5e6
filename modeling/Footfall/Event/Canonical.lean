import Footfall.Event.Record
import Footfall.Failure

/-!
The canonical form of an event. Texts have no blanks at their ends and are absent rather than empty,
sizes of a screen are positive, account and team agree, and times are instants. Bringing a record
into canonical form a second time changes nothing.
-/

namespace Footfall.Event

/-- Older names of fields, with the names that took their place. -/
def aliases : List (String × String) :=
  [("createdAt", "created_at"), ("updatedAt", "updated_at"), ("os", "operating_system"),
   ("referrer", "referer")]

def textFields : List String :=
  ["page_url", "client_page_url", "referer", "browser", "operating_system", "device_type",
   "country", "region", "city", "postal", "rid"]

/-- Moves the value of an older name, unless the field has a value. -/
def renameField (fields : Fields) (old name : String) : Fields :=
  match Value.lookup fields old with
  | some v =>
    if (Value.get fields name).isNull then Value.put (Value.remove fields old) name v else fields
  | none => fields

def renameFields (fields : Fields) : Fields :=
  aliases.foldl (fun fields a ↦ renameField fields a.1 a.2) fields

def nonEmpty (s : String) : Option String := if s.isEmpty then none else some s

/-- Whether a whole number has more digits than are written. -/
def isLong (n : Int) : Bool := decide (Nat.pow 10 Numeral.maxDigits ≤ n.natAbs)

/-- Numbers are taken as their text; a text without its outer blanks must not be empty. -/
def cleanText : Value → Except Fault (Option String)
  | .text s => .ok (nonEmpty (Text.strip s))
  | .int n => if isLong n then .error .longWhole else .ok (nonEmpty (Text.strip (toString n)))
  | .float x => .ok (nonEmpty (Text.strip x.text))
  | _ => .ok none

/-- The whole part of a floating-point number, if that is positive. What is not a number has
none. -/
def positivePart : Double → Except Fault (Option Int)
  | .infinite _ => .error .infinite
  | x =>
    match x.truncate? with
    | some n => .ok (if 0 < n then some n else none)
    | none => .ok none

/-- A size in pixels. A value that is no number has no size. -/
def cleanDimension : Value → Except Fault (Option Int)
  | .bool _ => .ok none
  | v =>
    match v.toReal with
    | .ok x => positivePart x
    | .error .hugeForReal => .error .hugeForReal
    | .error _ => .ok none

def putText (fields : Fields) (name : String) : Except Failure Fields :=
  match cleanText (Value.get fields name) with
  | .ok s => .ok (Value.put fields name (.ofText s))
  | .error e => .error (.fault e)

def putRequired (fields : Fields) (name : String) : Except Failure Fields :=
  match cleanText (Value.get fields name) with
  | .ok (some s) => .ok (Value.put fields name (.text s))
  | .ok none => .error (.violation (.payloadField name))
  | .error e => .error (.fault e)

def putDimension (fields : Fields) (name : String) : Except Failure Fields :=
  match cleanDimension (Value.get fields name) with
  | .ok n => .ok (Value.put fields name (.ofWhole n))
  | .error e => .error (.fault e)

/-- Sets account and team to the team, or to the account if there is no team. -/
def putTeam (fields : Fields) : Fields :=
  let team := Value.get fields "team_id"
  let team := if team.isNull then Value.get fields "account_id" else team
  Value.put (Value.put fields "team_id" team) "account_id" team

def clean (fields : Fields) : Except Failure Fields := do
  let fields ← putRequired (renameFields fields) "event"
  let fields ← putRequired fields "tag_id"
  let fields ← textFields.foldlM putText fields
  let fields ← putDimension fields "screen_width"
  let fields ← putDimension fields "screen_height"
  return putTeam fields

def canonicalizeFields (fields : Fields) : Except Failure EventRecord := do
  match EventRecord.read (← clean fields) with
  | .accepted r => return r
  | .rejected (i :: _) => throw (.violation (.payloadIssue i))
  | .rejected [] => throw (.violation .payloadKind)
  | .failed e => throw (.fault e)

def canonicalize : Value → Except Failure EventRecord
  | .object fields => canonicalizeFields fields
  | _ => .error (.violation .payloadKind)

def recanonicalize (r : EventRecord) : Except Failure EventRecord := canonicalizeFields r.toFields

end Footfall.Event
