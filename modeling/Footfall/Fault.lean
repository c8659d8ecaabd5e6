import Footfall.Json.Reader
import Footfall.Time.Reading
import Footfall.Value.Shown

/-!
Faults of arithmetic, conversion and lookup. They are not refusals of the library: a fault says
that a value could not be computed at all.
-/

namespace Footfall

/-- A conversion of a value of unknown shape. -/
inductive Conversion
  | whole
  | real
  deriving DecidableEq, Repr

/-- A comparison of two values. -/
inductive Comparison
  | less
  | atMost
  | above
  deriving DecidableEq, Repr

def Comparison.sign : Comparison → String
  | .less => "<"
  | .atMost => "<="
  | .above => ">"

/-- A character that an address must not hold, or too many of them. -/
inductive AddressFault
  | unprintable (c : Char) (position : Nat)
  | tooLong
  deriving DecidableEq, Repr

def AddressFault.message : AddressFault → String
  | .unprintable c position =>
    s!"Invalid non-printable ASCII character in URL, {Text.quoted c.toString} at position {position}."
  | .tooLong => "URL too long"

inductive Fault
  | outsideCalendar
  | longSpan (days : Int)
  | hugeSpan
  | spanKind (unit : String) (v : Value)
  | hugeForStore
  | hugeForReal
  | infinite
  | notANumber
  | numeral (conversion : Conversion) (v : Value)
  | longNumeral (digits : Nat)
  | longWhole
  | notNumeric (conversion : Conversion) (v : Value)
  | date (fault : Time.DateFault)
  | dateKind (v : Value)
  | notEarlier (v : Value)
  | dialect (name : Value)
  | granularity (v : Value)
  | noDirectory
  | notAddable (a b : Value)
  | uncomparable (comparison : Comparison) (a b : Value)
  | mixedTimes
  | mixedOffsets
  | notAKey (v : Value)
  | noLength (v : Value)
  | noItems (v : Value)
  | itemKey (v : Value)
  | noIteration (v : Value)
  | missingItem
  | unknownSetting (name : String)
  | missingKey (key : String)
  | undecodable (e : Text.Undecodable)
  | unencodable (e : Text.Unencodable)
  | document (problem : Json.Problem) (text : String) (position : Nat)
  | unwritable (v : Value)
  | address (fault : AddressFault)
  | noAttribute (v : Value) (name : String)
  | bytesFront
  | notAPath (v : Value)
  | mixedPath
  | bytesPattern
  | notSearchable (v : Value)
  | noTable
  deriving Repr

namespace Fault

def shownLength : Nat := 200

def cut (s : String) : String := String.ofList (s.toList.take shownLength)

def additionMessage (a b : Value) : String :=
  match a with
  | .text _ => s!"can only concatenate str (not \"{b.kind}\") to str"
  | .list _ => s!"can only concatenate list (not \"{b.kind}\") to list"
  | .bytes _ => s!"can't concat {b.kind} to bytes"
  | _ => s!"unsupported operand type(s) for +: '{a.kind}' and '{b.kind}'"

/-- The message for a value whose items are not found by name. -/
def itemMessage : Value → String
  | .text _ => "string indices must be integers, not 'str'"
  | .list _ => "list indices must be integers or slices, not str"
  | .bytes _ => "byte indices must be integers or slices, not str"
  | v => s!"'{v.kind}' object is not subscriptable"

/-- A number is unwritable when it has no digits, any other value for its sort. -/
def writingMessage : Value → String
  | .float _ => "Out of range float values are not JSON compliant"
  | v => s!"Object of type {v.bareKind} is not JSON serializable"

def message : Fault → String
  | .outsideCalendar => "date value out of range"
  | .longSpan days => s!"days={days}; must have magnitude <= 999999999"
  | .hugeSpan => "Python int too large to convert to C int"
  | .spanKind unit v => s!"unsupported type for timedelta {unit} component: {v.kind}"
  | .hugeForStore => "Python int too large to convert to SQLite INTEGER"
  | .hugeForReal => "int too large to convert to float"
  | .infinite => "cannot convert float infinity to integer"
  | .notANumber => "cannot convert float NaN to integer"
  | .numeral .whole v => s!"invalid literal for int() with base 10: {cut v.shown}"
  | .numeral .real v => s!"could not convert string to float: {v.shown}"
  | .longNumeral n => (Json.Refusal.tooLong n).message
  | .longWhole =>
    "Exceeds the limit (4300 digits) for integer string conversion; use sys.set_int_max_str_digits() to increase the limit"
  | .notNumeric .whole v =>
    s!"int() argument must be a string, a bytes-like object or a real number, not '{v.kind}'"
  | .notNumeric .real v => s!"float() argument must be a string or a real number, not '{v.kind}'"
  | .date fault => fault.message
  | .dateKind v =>
    "combine() argument 1 must be datetime.date, not " ++ (if v.isNull then v.plain else v.kind)
  | .notEarlier v =>
    s!"unsupported operand type(s) for -: '{v.kind}' and 'datetime.timedelta'"
  | .dialect name => s!"Unsupported SQL dialect: {name.plain}"
  | .granularity v => s!"{v.shown} is not a valid Granularity"
  | .noDirectory => "A site directory is required: pass sites= or configure D1 credentials"
  | .notAddable a b => additionMessage a b
  | .uncomparable c a b =>
    s!"'{c.sign}' not supported between instances of '{a.kind}' and '{b.kind}'"
  | .mixedTimes => "can't compare datetime.datetime to datetime.date"
  | .mixedOffsets => "can't compare offset-naive and offset-aware datetimes"
  | .notAKey v => s!"unhashable type: '{v.kind}'"
  | .noLength v => s!"object of type '{v.kind}' has no len()"
  | .noItems v => s!"'{v.kind}' object is not subscriptable"
  | .itemKey v => itemMessage v
  | .noIteration v => s!"'{v.kind}' object is not iterable"
  | .missingItem => "0"
  | .unknownSetting name => s!"CoreConfig.__init__() got an unexpected keyword argument '{name}'"
  | .missingKey key => Text.quoted key
  | .undecodable e => e.message
  | .unencodable e => e.message
  | .document problem text position => problem.located text.toList position
  | .unwritable v => writingMessage v
  | .address fault => fault.message
  | .noAttribute v name => s!"'{v.kind}' object has no attribute '{name}'"
  | .bytesFront => "startswith first arg must be bytes or a tuple of bytes, not str"
  | .notAPath v => s!"expected str, bytes or os.PathLike object, not {v.bareKind}"
  | .mixedPath => "Can't mix strings and bytes in path components"
  | .bytesPattern => "cannot use a string pattern on a bytes-like object"
  | .notSearchable v => s!"expected string or bytes-like object, got '{v.kind}'"
  | .noTable => "site_events"

end Fault

end Footfall
