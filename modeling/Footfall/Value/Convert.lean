import Footfall.Fault

/-!
Conversion of values of unknown shape to numbers. Truth values count as 0 and 1, texts and the bytes
of ASCII texts are read as numerals, and a fraction is dropped.
-/

namespace Footfall.Value

/-- The characters that a value is written with, if it may be a numeral. -/
def written? : Value → Option (List Char)
  | .text s => some s.toList
  | .bytes bs => some (bs.map fun b ↦ if b.toNat < 128 then Char.ofNat b.toNat else '\ufffd')
  | _ => none

def toWhole : Value → Except Fault Int
  | .int n => .ok n
  | .bool b => .ok b.toNat
  | .float .nan => .error .notANumber
  | .float x =>
    match x.truncate? with
    | some n => .ok n
    | none => .error .infinite
  | v =>
    match v.written?.map Numeral.readWhole with
    | some (.ok n) => .ok n
    | some (.error .notANumeral) => .error (.numeral .whole v)
    | some (.error (.tooLong n)) => .error (.longNumeral n)
    | none => .error (.notNumeric .whole v)

/-- The floating-point number that a value stands for; a whole number beyond its range has none. -/
def toReal : Value → Except Fault Double
  | .float x => .ok x
  | .int n =>
    match Double.ofInt n with
    | .infinite _ => .error .hugeForReal
    | x => .ok x
  | .bool b => .ok (Double.ofInt b.toNat)
  | v =>
    match v.written?.map Numeral.readReal? with
    | some (some x) => .ok x
    | some none => .error (.numeral .real v)
    | none => .error (.notNumeric .real v)

@[simp] theorem toWhole_int (n : Int) : toWhole (.int n) = .ok n := rfl

/-- The sum of two values, when both are numbers or both are texts, bytes or lists. -/
def add : Value → Value → Except Fault Value
  | .text a, .text b => .ok (.text (a ++ b))
  | .bytes a, .bytes b => .ok (.bytes (a ++ b))
  | .list a, .list b => .ok (.list (a ++ b))
  | a, b =>
    match a.number?, b.number? with
    | some (.whole m), some (.whole n) => .ok (.int (m + n))
    | some (.whole m), some (.real y) => return .float (Double.add (← toReal (.int m)) y)
    | some (.real x), some (.whole n) => return .float (Double.add x (← toReal (.int n)))
    | some (.real x), some (.real y) => .ok (.float (Double.add x y))
    | _, _ => .error (.notAddable a b)

/-- The parts of a value one by one: items, characters, bytes or keys. -/
def items : Value → Except Fault (List Value)
  | .list vs => .ok vs
  | .text s => .ok (s.toList.map fun c ↦ .text (String.ofList [c]))
  | .bytes bs => .ok (bs.map fun b ↦ .int b.toNat)
  | .object fields => .ok (fields.map fun f ↦ .text f.1)
  | v => .error (.noIteration v)

/-- Whether a value may be a key: lists and objects may not. -/
def asKey : Value → Except Fault Value
  | v@(.list _) | v@(.object _) => .error (.notAKey v)
  | v => .ok v

end Footfall.Value
