import Footfall.Event.Canonical
import Footfall.Report.Widget

/-!
Reading stored reports. A document is text, bytes or a value; it has to be an object of the current
version. Any other version is shown in the message, unless there is a whole number in it with more
digits than are written.
-/

namespace Footfall.Report

def ofText (s : String) : Except Failure Value :=
  match Json.read s with
  | .ok v => .ok v
  | .error (.malformed p _) => .error (.violation (.reportText p))
  | .error (.tooLong n) => .error (.fault (.longNumeral n))

def ofBytes (bs : List UInt8) : Except Failure Value :=
  match Text.decode bs with
  | .error e => .error (.fault (.undecodable e))
  | .ok cs =>
    match Json.readChars cs with
    | .ok v => .ok v
    | .error (.malformed p _) => .error (.violation (.reportText p))
    | .error (.tooLong n) => .error (.fault (.longNumeral n))

def content : Value → Except Failure Value
  | .text s => ofText s
  | .bytes bs => ofBytes bs
  | v => .ok v

mutual

/-- Whether a value has no whole number in it with more digits than are written. -/
def isShowable : Value → Bool
  | .int n => !Event.isLong n
  | .list items => areShowable items
  | .object fields => areFieldsShowable fields
  | _ => true

def areShowable : List Value → Bool
  | [] => true
  | v :: rest => isShowable v && areShowable rest

def areFieldsShowable : List (String × Value) → Bool
  | [] => true
  | (_, v) :: rest => isShowable v && areFieldsShowable rest

end

/-- The report of an object. The version is checked before the widgets are looked at. -/
def ofFields (fields : Fields) : Except Failure Report :=
  let stated := Value.get fields "version"
  if isVersion stated then
    match read (.object fields) with
    | .accepted r => .ok r
    | .rejected (i :: _) => .error (.violation (.reportIssue i))
    | .rejected [] => .error (.rejected [])
    | .failed f => .error (.fault f)
  else if isShowable stated then .error (.violation (.reportVersion stated))
  else .error (.fault .longWhole)

def ofContent : Value → Except Failure Report
  | .object fields => ofFields fields
  | _ => .error (.violation .reportKind)

def parse (document : Value) : Except Failure Report := content document >>= ofContent

end Footfall.Report
