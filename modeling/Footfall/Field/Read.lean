import Footfall.Field.Issue
import Footfall.Value.Convert

/-!
Reading the fields of a record from a value of unknown shape. Whole numbers are also read from
numbers without fraction, from truth values and from numerals; truth values from their usual words;
times from texts and from counts of seconds. Texts are read from texts alone. Wherever a text may
stand, so may the bytes of one.
-/

namespace Footfall.Field

open Reading

/-- A whole number in its plain form: digits without a needless zero in front, after a minus sign if
it is negative. The count of the digits is looked at before what follows them. -/
def plainWhole (cs : List Char) : Except Cause Int :=
  let negative := cs.head? == some '-'
  let body := if negative then cs.drop 1 else cs
  let ds := body.takeWhile Char.isDigit
  if ds.isEmpty || (ds.head? == some '0' && 1 < ds.length) then .error .wholeText
  else if Numeral.maxDigits < ds.length then .error .wholeSize
  else if ds.length < body.length then .error .wholeText
  else .ok (Text.signed negative (Text.natural ds))

/-- Whether a numeral may begin with a character once its leading zeros are gone. -/
def leadsNumeral (c : Char) : Bool := c == '-' || (c.isDigit && c != '0')

/-- What is left of a numeral after the given zero when the zeros and low lines that follow are
dropped too; the last of them stays in front of a point and at the end. -/
def afterZeros (last : Char) : List Char → Option (List Char)
  | [] => some [last]
  | c :: rest =>
    if c = '0' ∨ c = '_' then afterZeros c rest
    else if c = '.' then some (last :: c :: rest)
    else if leadsNumeral c then some (c :: rest)
    else none

def dropLeadingZeros : List Char → Option (List Char)
  | '0' :: rest => afterZeros '0' rest
  | cs => if cs.head?.any leadsNumeral then some cs else none

/-- The part before a point that only zeros follow; a text without a point is left as it is. -/
def dropZeroFraction (cs : List Char) : Option (List Char) :=
  match cs.dropWhile (· ≠ '.') with
  | [] => some cs
  | _ :: zeros =>
    if !zeros.isEmpty && zeros.all (· == '0') then some (cs.takeWhile (· ≠ '.')) else none

/-- A numeral without its low lines, each of which has to stand alone and inside. -/
def dropLines (cs : List Char) : Option (List Char) :=
  if Numeral.areLinesInside cs then some (cs.filter (· ≠ '_')) else none

def plainForm? (cs : List Char) : Option (List Char) := do
  let cs := Text.trimBy Text.isSpace cs
  let cs := if cs.head? = some '+' then cs.drop 1 else cs
  dropLines (← dropZeroFraction (← dropLeadingZeros cs))

/-- Reads the plain form. Only when a text is not in that form are blanks at the ends, a plus sign,
zeros in front, a fraction of zeros and low lines allowed. -/
def wholeText (s : String) : Reading Int :=
  match plainWhole s.toList with
  | .ok n => .accepted n
  | .error .wholeSize => refuse .wholeSize
  | .error _ =>
    match (plainForm? s.toList).map plainWhole with
    | some (.ok n) => .accepted n
    | _ => refuse .wholeText

def wholeReal (x : Double) : Reading Int :=
  if !x.isFinite then refuse .notFinite
  else
    match x.whole? with
    | none => refuse .wholeFraction
    | some n => if -0x8000000000000000 < n ∧ n < 0x8000000000000000 then .accepted n else refuse .wholeSize

/-- The text that bytes stand for; the given cause is told when there is none. -/
def textOfBytes (cause : Cause) (bs : List UInt8) : Reading String :=
  match Text.decodeBytes 0 none bs with
  | .ok cs => .accepted (String.ofList cs)
  | .error _ => refuse cause

def whole : Value → Reading Int
  | .int n => .accepted n
  | .bool b => .accepted b.toNat
  | .float x => wholeReal x
  | .text s => wholeText s
  | .bytes bs => (textOfBytes .wholeText bs).bind wholeText
  | _ => refuse .wholeKind

def text : Value → Reading String
  | .text s => .accepted s
  | .bytes bs => textOfBytes .textEncoding bs
  | _ => refuse .textKind

def trueWords : List String := ["1", "true", "t", "yes", "y", "on"]
def falseWords : List String := ["0", "false", "f", "no", "n", "off"]

def truthText (s : String) : Reading Bool :=
  let w := String.ofList (Numeral.lower s.toList)
  if w ∈ trueWords then .accepted true
  else if w ∈ falseWords then .accepted false
  else refuse .truthText

def truthWhole (n : Int) : Reading Bool :=
  if n = 0 then .accepted false else if n = 1 then .accepted true else refuse .truthText

def truth : Value → Reading Bool
  | .bool b => .accepted b
  | .int n => if -0x8000000000000000 ≤ n ∧ n < 0x8000000000000000 then truthWhole n else refuse .truthKind
  | .float x =>
    match wholeReal x with
    | .accepted n => truthWhole n
    | _ => refuse .truthKind
  | .text s => truthText s
  | .bytes bs => (textOfBytes .truthText bs).bind truthText
  | _ => refuse .truthKind

/-- A decimal in ASCII characters without blanks and low lines. -/
def plainReal? (cs : List Char) : Option Double :=
  if cs.all fun c ↦ decide (c.toNat < 128 ∧ c ≠ '_') && !Text.isSpace c then Numeral.readReal? cs
  else none

/-- A decimal that may have blanks at the ends or low lines inside, but not both. -/
def realText (s : String) : Reading Double :=
  match (plainReal? (Text.trimBy Text.isSpace s.toList)).or
      ((dropLines s.toList).bind plainReal?) with
  | some x => .accepted x
  | none => refuse .realText

def real : Value → Reading Double
  | .float x => .accepted x
  | .text s => realText s
  | .bytes bs => (textOfBytes .realText bs).bind realText
  | v@(.int _) | v@(.bool _) =>
    match v.toReal with
    | .ok x => .accepted x
    | .error _ => refuse .realKind
  | _ => refuse .realKind

/-- The time of a moment, whose year must not be 0. -/
def ofMoment (m : Time.Moment) : Reading Timestamp :=
  match Instant.ofMicros? m.wall with
  | some t => .accepted ⟨t, m.offset⟩
  | none => refuse .timeYear

/-- The time that a number of seconds or milliseconds stands for. -/
def timeReal (x : Double) : Reading Timestamp :=
  match x with
  | .nan => refuse .timeNotANumber
  | .infinite negative => refuse (.timeNumber (if negative then .tooEarly else .tooLate))
  | x =>
    match Time.ofReal x with
    | .ok m => ofMoment m
    | .error r => refuse (.timeNumber r)

/-- The time that a text stands for, whose size is told in bytes. -/
def timeText (size : Nat) (cs : List Char) : Reading Timestamp :=
  match Time.readMoment size cs with
  | .ok m => ofMoment m
  | .error r => refuse (.timeText r)

def timestamp : Value → Reading Timestamp
  | .time t => .accepted t
  | .date d => .accepted ⟨.ofDate d, none⟩
  | .int n =>
    if -0x8000000000000000 ≤ n ∧ n < 0x8000000000000000 then
      match Time.ofUnix n with
      | .ok m => ofMoment m
      | .error r => refuse (.timeNumber r)
    else
      match (Value.int n).toReal with
      | .ok x => timeReal x
      | .error _ => refuse .timeKind
  | .float x => timeReal x
  | .text s => timeText s.utf8ByteSize s.toList
  | .bytes bs => timeText bs.length (Text.decodeLossy bs)
  | _ => refuse .timeKind

def instant (v : Value) : Reading Instant :=
  (timestamp v).bind fun t ↦
    match t.toInstant? with
    | some i => .accepted i
    | none => .failed .outsideCalendar

/-- A plain date, as a value or as text with or without blanks around it, is midnight; all else is
read as an instant. -/
def instantOrDate (v : Value) : Reading Instant :=
  match v with
  | .text s =>
    match Time.readDate? (Text.strip s).toList with
    | some (.ok d) => .accepted (.ofDate d)
    | some (.error fault) => refuse (.rule fault.message)
    | none => instant v
  | v => instant v

def choice {α : Type} (all : List α) (name : α → String) (v : Value) : Reading α :=
  match text v with
  | .accepted s =>
    match all.find? fun a ↦ name a == s with
    | some a => .accepted a
    | none => refuse (.choice (all.map name))
  | _ => refuse (.choice (all.map name))

def object : Value → Reading (List (String × Value))
  | .object fields => .accepted fields
  | _ => refuse .objectKind

def record (name : String) : Value → Reading (List (String × Value))
  | .object fields => .accepted fields
  | _ => refuse (.recordKind name)

def itemsFrom {α : Type} (read : Value → Reading α) : Nat → List Value → Reading (List α)
  | _, [] => .accepted []
  | n, v :: rest => ((read v).under (.index n)).map List.cons |>.seq (itemsFrom read (n + 1) rest)

def list {α : Type} (read : Value → Reading α) : Value → Reading (List α)
  | .list items => itemsFrom read 0 items
  | _ => refuse .listKind

def nullable {α : Type} (read : Value → Reading α) : Value → Reading (Option α)
  | .null => .accepted none
  | v => (read v).map some

def atLeast (n : Int) (read : Value → Reading Int) (v : Value) : Reading Int :=
  (read v).bind fun k ↦ if k < n then refuse (.atLeast n) else .accepted k

def atMost (n : Int) (read : Value → Reading Int) (v : Value) : Reading Int :=
  (read v).bind fun k ↦ if n < k then refuse (.atMost n) else .accepted k

variable {α : Type} (fields : List (String × Value))

def required (name : String) (read : Value → Reading α) : Reading α :=
  match Value.lookup fields name with
  | some v => (read v).under (.key name)
  | none => .rejected [⟨[.key name], .missing⟩]

def optional (name : String) (default : α) (read : Value → Reading α) : Reading α :=
  match Value.lookup fields name with
  | some v => (read v).under (.key name)
  | none => .accepted default

/-- Drops each low line and makes the next letter a capital; the flag tells that one is due. -/
def joinWords : Bool → List Char → List Char
  | _, [] => []
  | capital, c :: rest =>
    if c = '_' then joinWords true rest
    else (if capital then c.toUpper else c) :: joinWords false rest

/-- The spelling of a name in documents, without low lines. -/
def documentName (name : String) : String := String.ofList (joinWords false name.toList)

/-- A field of a document, under its document name or else its plain name. Issues are told under the
document name. -/
def requiredIn (name : String) (read : Value → Reading α) : Reading α :=
  let key := documentName name
  match (Value.lookup fields key).or (Value.lookup fields name) with
  | some v => (read v).under (.key key)
  | none => .rejected [⟨[.key key], .missing⟩]

def optionalIn (name : String) (default : α) (read : Value → Reading α) : Reading α :=
  let key := documentName name
  match (Value.lookup fields key).or (Value.lookup fields name) with
  | some v => (read v).under (.key key)
  | none => .accepted default

end Footfall.Field
