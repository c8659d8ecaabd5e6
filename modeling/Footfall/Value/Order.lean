import Footfall.Fault

/-!
Comparison of values of unknown shape. Numbers of all sorts are equal when their values are, truth
values among them. Only values of one sort stand in an order; lists are compared item by item.
-/

namespace Footfall

/-- Equality of times: both show the same instant, or both show the same clock without an offset. -/
def Timestamp.same (a b : Timestamp) : Bool :=
  a.offset.isSome == b.offset.isSome &&
    (a.wall.micros : Int) - a.offset.getD 0 == (b.wall.micros : Int) - b.offset.getD 0

def bytesBelow : List UInt8 → List UInt8 → Bool
  | [], bs => !bs.isEmpty
  | _ :: _, [] => false
  | a :: as, b :: bs => decide (a < b) || (a == b && bytesBelow as bs)

namespace Value

mutual

/-- Equality of values; objects are equal when they have equal values under the same keys. -/
def same : Value → Value → Bool
  | .null, .null => true
  | .text a, .text b => a == b
  | .bytes a, .bytes b => a == b
  | .date a, .date b => a == b
  | .time a, .time b => a.same b
  | .list as, .list bs => sameItems as bs
  | .object as, .object bs => as.length == bs.length && sameFields as bs
  | a, b =>
    match a.number?, b.number? with
    | some m, some n => m.same n
    | _, _ => false

def sameItems : List Value → List Value → Bool
  | [], [] => true
  | a :: as, b :: bs => same a b && sameItems as bs
  | _, _ => false

def sameFields : List (String × Value) → List (String × Value) → Bool
  | [], _ => true
  | (k, a) :: as, bs => (lookup bs k).any (same a) && sameFields as bs

end

/-- Whether a time comes before another one, when both have an offset or neither has. -/
def timeBelow (a b : Timestamp) : Except Fault Bool :=
  if a.offset.isSome = b.offset.isSome then
    .ok (decide ((a.wall.micros : Int) - a.offset.getD 0 < b.wall.micros - b.offset.getD 0))
  else .error .mixedOffsets

mutual

/-- Whether one value is below another, when they can be compared. -/
def lessThan : Value → Value → Except Fault Bool
  | .text a, .text b => .ok (decide (a < b))
  | .bytes a, .bytes b => .ok (bytesBelow a b)
  | .date a, .date b => .ok (decide (a.number < b.number))
  | .time a, .time b => timeBelow a b
  | .date _, .time _ | .time _, .date _ => .error .mixedTimes
  | .list as, .list bs => itemsBelow as bs
  | a, b =>
    match a.number?, b.number? with
    | some m, some n => .ok (m.lt n)
    | _, _ => .error (.uncomparable .less a b)

def itemsBelow : List Value → List Value → Except Fault Bool
  | [], bs => .ok (!bs.isEmpty)
  | _ :: _, [] => .ok false
  | a :: as, b :: bs => if a.same b then itemsBelow as bs else a.lessThan b

end

def atMost (a b : Value) : Except Fault Bool :=
  match a.number?, b.number? with
  | some m, some n => .ok (m.le n)
  | _, _ => .error (.uncomparable .atMost a b)

def above (a b : Value) : Except Fault Bool :=
  match a.number?, b.number? with
  | some m, some n => .ok (n.lt m)
  | _, _ => .error (.uncomparable .above a b)

@[simp] theorem lessThan_int (m n : Int) : lessThan (.int m) (.int n) = .ok (decide (m < n)) := by
  simp [lessThan, number?, Number.lt]

@[simp] theorem atMost_int (m n : Int) : atMost (.int m) (.int n) = .ok (decide (m ≤ n)) := by
  simp [atMost, number?, Number.le_whole]

@[simp] theorem above_int (m n : Int) : above (.int m) (.int n) = .ok (decide (n < m)) := by
  simp [above, number?, Number.lt]

end Value

end Footfall
