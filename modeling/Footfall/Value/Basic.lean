import Footfall.Number.Double
import Footfall.Time.Instant

/-!
Values of unknown shape: what a payload, a stored document or a query string holds before it has
been read into a record.
-/

namespace Footfall

inductive Value
  | null
  | bool (b : Bool)
  | int (n : Int)
  | float (x : Double)
  | text (s : String)
  | bytes (bs : List UInt8)
  | date (d : Date)
  | time (t : Timestamp)
  | list (items : List Value)
  | object (fields : List (String × Value))
  deriving Repr, Inhabited

namespace Value

mutual

def beq : Value → Value → Bool
  | .null, .null => true
  | .bool a, .bool b => a == b
  | .int a, .int b => a == b
  | .float a, .float b => a == b
  | .text a, .text b => a == b
  | .bytes a, .bytes b => a == b
  | .date a, .date b => a == b
  | .time a, .time b => a == b
  | .list a, .list b => beqList a b
  | .object a, .object b => beqFields a b
  | _, _ => false

def beqList : List Value → List Value → Bool
  | [], [] => true
  | a :: as, b :: bs => beq a b && beqList as bs
  | _, _ => false

def beqFields : List (String × Value) → List (String × Value) → Bool
  | [], [] => true
  | (k, a) :: as, (l, b) :: bs => k == l && beq a b && beqFields as bs
  | _, _ => false

end

instance : BEq Value := ⟨beq⟩

def lookup (fields : List (String × Value)) (key : String) : Option Value :=
  (fields.find? (·.1 == key)).map (·.2)

/-- The value under a key, a missing one counting as null. -/
def get (fields : List (String × Value)) (key : String) : Value := (lookup fields key).getD .null

/-- Puts a value under a key: in place of the old one, or at the end. -/
def put (fields : List (String × Value)) (key : String) (v : Value) : List (String × Value) :=
  match fields with
  | [] => [(key, v)]
  | (k, w) :: rest => if k = key then (k, v) :: rest else (k, w) :: put rest key v

def remove (fields : List (String × Value)) (key : String) : List (String × Value) :=
  fields.filter (·.1 != key)

def isNull : Value → Bool
  | .null => true
  | _ => false

/-- A number; truth values count as 0 and 1. -/
def number? : Value → Option Number
  | .bool b => some (.whole b.toNat)
  | .int n => some (.whole n)
  | .float x => some (.real x)
  | _ => none

/-- Whether a value counts as true: it is neither zero nor empty. -/
def isTruthy : Value → Bool
  | .null => false
  | .bool b => b
  | .int n => n != 0
  | .float (.finite _ m _) => m != 0
  | .float _ => true
  | .text s => !s.isEmpty
  | .bytes bs => !bs.isEmpty
  | .date _ | .time _ => true
  | .list items => !items.isEmpty
  | .object fields => !fields.isEmpty

def kind : Value → String
  | .null => "NoneType"
  | .bool _ => "bool"
  | .int _ => "int"
  | .float _ => "float"
  | .text _ => "str"
  | .bytes _ => "bytes"
  | .date _ => "datetime.date"
  | .time _ => "datetime.datetime"
  | .list _ => "list"
  | .object _ => "dict"

/-- The word for the shape of a value, without the place where it is defined. -/
def bareKind : Value → String
  | .date _ => "date"
  | .time _ => "datetime"
  | v => v.kind

theorem lookup_put_self (fields : List (String × Value)) (key : String) (v : Value) :
    lookup (put fields key v) key = some v := by
  induction fields with
  | nil => simp [put, lookup]
  | cons f rest ih =>
    by_cases h : f.1 = key
    · simp [put, lookup, h]
    · simpa [put, lookup, h] using ih

theorem lookup_put_of_ne (fields : List (String × Value)) {key other : String} (v : Value)
    (h : other ≠ key) : lookup (put fields key v) other = lookup fields other := by
  induction fields with
  | nil => simp [put, lookup, Ne.symm h]
  | cons f rest ih =>
    by_cases hk : f.1 = key
    · simp [put, lookup, hk, Ne.symm h]
    · by_cases ho : f.1 = other
      · subst ho
        simp [put, lookup, h]
      · simpa [put, lookup, hk, ho] using ih

end Value

end Footfall
