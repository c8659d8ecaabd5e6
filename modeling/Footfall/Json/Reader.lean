import Footfall.Value.Basic
import Footfall.Number.Numeral
import Footfall.Text.Digit
import Footfall.Text.Encoding

/-!
Reading JSON documents. A refusal says what was expected and where, counted in characters. Beside
the standard the three numbers without digits are understood, and of several values under one key
the last one counts.
-/

namespace Footfall.Json

inductive Problem
  | propertyName
  | colon
  | comma
  | value
  | unterminated
  | unicodeEscape
  | escape
  | control
  | extra
  | mark
  deriving DecidableEq, Repr

def Problem.message : Problem → String
  | .propertyName => "Expecting property name enclosed in double quotes"
  | .colon => "Expecting ':' delimiter"
  | .comma => "Expecting ',' delimiter"
  | .value => "Expecting value"
  | .unterminated => "Unterminated string starting at"
  | .unicodeEscape => "Invalid \\uXXXX escape"
  | .escape => "Invalid \\escape"
  | .control => "Invalid control character at"
  | .extra => "Extra data"
  | .mark => "Unexpected UTF-8 BOM (decode using utf-8-sig)"

inductive Refusal
  | malformed (problem : Problem) (position : Nat)
  /-- A whole number with more digits than are read. -/
  | tooLong (digits : Nat)
  deriving DecidableEq, Repr

/-- A result together with the position behind it and what follows. -/
abbrev Ahead (α : Type) := α × Nat × List Char

def skip (position : Nat) : List Char → Nat × List Char
  | c :: rest =>
    if c = ' ' ∨ c = '\t' ∨ c = '\n' ∨ c = '\r' then skip (position + 1) rest
    else (position, c :: rest)
  | [] => (position, [])

def hexValue? (c : Char) : Option Nat :=
  if c.isDigit then some (c.toNat - 48)
  else if 'a' ≤ c ∧ c ≤ 'f' then some (c.toNat - 87)
  else if 'A' ≤ c ∧ c ≤ 'F' then some (c.toNat - 55)
  else none

def hex4? (a b c d : Char) : Option Nat := do
  return (((← hexValue? a) * 16 + (← hexValue? b)) * 16 + (← hexValue? c)) * 16 + (← hexValue? d)

def simpleEscape? (c : Char) : Option Char :=
  match c with
  | '"' => some '"'
  | '\\' => some '\\'
  | '/' => some '/'
  | 'b' => some '\x08'
  | 'f' => some '\x0c'
  | 'n' => some '\n'
  | 'r' => some '\r'
  | 't' => some '\t'
  | _ => none

/-- The characters of a string that started at `start`, behind its opening quote. `high` is the
first half of a surrogate pair whose second half may follow. -/
def readString (start position : Nat) (high : Option Nat) (acc : List Char) :
    List Char → Except Refusal (Ahead String)
  | [] => .error (.malformed .unterminated start)
  | c :: rest =>
    let acc' := if high.isSome then '\ufffd' :: acc else acc
    if c = '"' then .ok (String.ofList acc'.reverse, position + 1, rest)
    else if c.toNat ≤ 0x1f then .error (.malformed .control position)
    else if c ≠ '\\' then readString start (position + 1) none (c :: acc') rest
    else
      match rest with
      | [] => .error (.malformed .unterminated start)
      | 'u' :: a :: b :: c :: d :: next :: rest' =>
        match hex4? a b c d with
        | none => .error (.malformed .unicodeEscape (position + 1))
        | some n =>
          let rest := next :: rest'
          if 0xdc00 ≤ n ∧ n < 0xe000 then
            match high with
            | some h =>
              let paired := Text.charOf (0x10000 + (h - 0xd800) * 0x400 + (n - 0xdc00))
              readString start (position + 6) none (paired :: acc) rest
            | none => readString start (position + 6) none ('\ufffd' :: acc) rest
          else if 0xd800 ≤ n ∧ n < 0xdc00 then
            readString start (position + 6) (some n) acc' rest
          else readString start (position + 6) none (Text.charOf n :: acc') rest
      | 'u' :: _ => .error (.malformed .unicodeEscape (position + 1))
      | e :: rest =>
        match simpleEscape? e with
        | some c => readString start (position + 2) none (c :: acc') rest
        | none => .error (.malformed .escape position)

/-- The digits of a fraction behind its point, when there is one. -/
def fractionDigits : List Char → List Char × List Char
  | '.' :: rest =>
    let ds := rest.takeWhile Char.isDigit
    if ds.isEmpty then ([], '.' :: rest) else (ds, rest.dropWhile Char.isDigit)
  | rest => ([], rest)

/-- The digits of an exponent with its sign, when there is one. -/
def exponentDigits : List Char → Option (Bool × List Char) × List Char
  | e :: rest =>
    if e = 'e' ∨ e = 'E' then
      let (negative, body) := Numeral.sign rest
      let ds := body.takeWhile Char.isDigit
      if ds.isEmpty then (none, e :: rest)
      else (some (negative, ds), body.dropWhile Char.isDigit)
    else (none, e :: rest)
  | [] => (none, [])

/-- The number at the front. Leading zeros end it. -/
def readNumber (position : Nat) (cs : List Char) : Except Refusal (Ahead Value) :=
  let (negative, body) := match cs with
    | '-' :: rest => (true, rest)
    | rest => (false, rest)
  let whole := match body with
    | '0' :: _ => ['0']
    | rest => rest.takeWhile Char.isDigit
  if whole.isEmpty then .error (.malformed .value position)
  else
    let (fraction, rest) := fractionDigits (body.drop whole.length)
    let (exponent, rest) := exponentDigits rest
    let position := position + (cs.length - rest.length)
    if fraction.isEmpty && exponent.isNone then
      if Numeral.maxDigits < whole.length then .error (.tooLong whole.length)
      else .ok (.int (Text.signed negative (Text.natural whole)), position, rest)
    else
      let shift : Int := match exponent with
        | some (true, ds) => -(Text.natural ds : Int)
        | some (false, ds) => Text.natural ds
        | none => 0
      let x := Double.ofDecimal negative (Text.natural (whole ++ fraction)) (shift - fraction.length)
      .ok (.float x, position, rest)

def words : List (List Char × Value) :=
  [("null".toList, .null), ("true".toList, .bool true), ("false".toList, .bool false),
   ("NaN".toList, .float .nan), ("Infinity".toList, .float (.infinite false)),
   ("-Infinity".toList, .float (.infinite true))]

mutual

/-- The value at the front; the fuel bounds the nesting. -/
def readValue : Nat → Nat → List Char → Except Refusal (Ahead Value)
  | 0, position, _ => .error (.malformed .value position)
  | _ + 1, position, [] => .error (.malformed .value position)
  | _ + 1, position, '"' :: rest => do
    let (s, position, rest) ← readString position (position + 1) none [] rest
    return (.text s, position, rest)
  | fuel + 1, position, '\x7b' :: rest =>
    match skip (position + 1) rest with
    | (position, '\x7d' :: rest) => .ok (.object [], position + 1, rest)
    | (position, rest) => readFields fuel [] position rest
  | fuel + 1, position, '[' :: rest =>
    match skip (position + 1) rest with
    | (position, ']' :: rest) => .ok (.list [], position + 1, rest)
    | (position, rest) => readItems fuel [] position rest
  | _ + 1, position, cs =>
    match words.find? fun w ↦ w.1.isPrefixOf cs with
    | some (w, v) => .ok (v, position + w.length, cs.drop w.length)
    | none => readNumber position cs

def readItems : Nat → List Value → Nat → List Char → Except Refusal (Ahead Value)
  | 0, _, position, _ => .error (.malformed .value position)
  | fuel + 1, acc, position, cs => do
    let (v, position, rest) ← readValue fuel position cs
    match skip position rest with
    | (position, ']' :: rest) => return (.list (v :: acc).reverse, position + 1, rest)
    | (position, ',' :: rest) =>
      let (position, rest) := skip (position + 1) rest
      readItems fuel (v :: acc) position rest
    | (position, _) => .error (.malformed .comma position)

def readFields : Nat → List (String × Value) → Nat → List Char → Except Refusal (Ahead Value)
  | 0, _, position, _ => .error (.malformed .value position)
  | fuel + 1, acc, position, '"' :: rest => do
    let (key, position, rest) ← readString position (position + 1) none [] rest
    match skip position rest with
    | (position, ':' :: rest) =>
      let (position, rest) := skip (position + 1) rest
      let (v, position, rest) ← readValue fuel position rest
      let acc := Value.put acc key v
      match skip position rest with
      | (position, '\x7d' :: rest) => return (.object acc, position + 1, rest)
      | (position, ',' :: rest) =>
        let (position, rest) := skip (position + 1) rest
        readFields fuel acc position rest
      | (position, _) => .error (.malformed .comma position)
    | (position, _) => .error (.malformed .colon position)
  | _ + 1, _, position, _ => .error (.malformed .propertyName position)

end

def readChars (cs : List Char) : Except Refusal Value := do
  let (position, rest) := skip 0 cs
  let (v, position, rest) ← readValue (2 * cs.length + 2) position rest
  match skip position rest with
  | (_, []) => return v
  | (position, _) => .error (.malformed .extra position)

/-- Reads a document given as text, which must not start with a byte order mark. -/
def read (s : String) : Except Refusal Value :=
  match s.toList with
  | '\ufeff' :: _ => .error (.malformed .mark 0)
  | cs => readChars cs

/-- The line and column of a position, both counted from 1. -/
def lineColumn (cs : List Char) (position : Nat) : Nat × Nat :=
  let before := cs.take position
  (before.count '\n' + 1, (before.reverse.takeWhile (· ≠ '\n')).length + 1)

def Problem.located (p : Problem) (cs : List Char) (position : Nat) : String :=
  let (line, column) := lineColumn cs position
  s!"{p.message}: line {line} column {column} (char {position})"

def Refusal.message : Refusal → String
  | .malformed p _ => p.message
  | .tooLong n => s!"Exceeds the limit (4300 digits) for integer string conversion: value has {n} digits; use sys.set_int_max_str_digits() to increase the limit"

end Footfall.Json
