import Footfall.Value.Basic
import Footfall.Number.Shortest
import Footfall.Text.Quoted

/-!
Writing values as JSON documents in ASCII, with a blank after each comma and colon.
-/

namespace Footfall.Json

/-- A code point as an escape of four digits, or as two of them. -/
def unicodeEscape (n : Nat) : List Char :=
  let one (n : Nat) := '\\' :: 'u' :: Text.hex 4 n
  if n < 0x10000 then one n
  else one (0xd800 + (n - 0x10000) / 0x400) ++ one (0xdc00 + (n - 0x10000) % 0x400)

def escapedChar (c : Char) : List Char :=
  if c = '"' then ['\\', '"']
  else if c = '\\' then ['\\', '\\']
  else if c = '\n' then ['\\', 'n']
  else if c = '\r' then ['\\', 'r']
  else if c = '\t' then ['\\', 't']
  else if c = '\x08' then ['\\', 'b']
  else if c = '\x0c' then ['\\', 'f']
  else if 32 ≤ c.toNat ∧ c.toNat < 127 then [c]
  else unicodeEscape c.toNat

def writeString (s : String) : String :=
  String.ofList ('"' :: s.toList.flatMap escapedChar ++ ['"'])

mutual

/-- A value as a document. Dates and times are written as text, bytes as null. -/
def write : Value → String
  | .null => "null"
  | .bool b => if b then "true" else "false"
  | .int n => toString n
  | .float x => Notation.document.write x
  | .text s => writeString s
  | .bytes _ => "null"
  | .date d => writeString d.text
  | .time t => writeString (t.isoText "T")
  | .list items => "[" ++ ", ".intercalate (writeList items) ++ "]"
  | .object fields => "\x7b" ++ ", ".intercalate (writeFields fields) ++ "\x7d"

def writeList : List Value → List String
  | [] => []
  | v :: rest => write v :: writeList rest

def writeFields : List (String × Value) → List String
  | [] => []
  | (k, v) :: rest => (writeString k ++ ": " ++ write v) :: writeFields rest

end

mutual

/-- The first part of a value that the standard has no form for: a number without digits, bytes, a
date or a time. -/
def unwritable? : Value → Option Value
  | .float x => if x.isFinite then none else some (.float x)
  | .list items => unwritableItem? items
  | .object fields => unwritableField? fields
  | .null | .bool _ | .int _ | .text _ => none
  | v => some v

def unwritableItem? : List Value → Option Value
  | [] => none
  | v :: rest => (unwritable? v).or (unwritableItem? rest)

def unwritableField? : List (String × Value) → Option Value
  | [] => none
  | (_, v) :: rest => (unwritable? v).or (unwritableField? rest)

end

end Footfall.Json
