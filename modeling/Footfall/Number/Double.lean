/-!
Binary floating-point numbers of 64 bits as exact values: `finite s m e` is `m * 2 ^ e`, negated
when `s` holds. Every result is the exact result rounded to the nearest number, ties to the even
significand, so that arithmetic can be reasoned about as arithmetic on integers.
-/

namespace Footfall

/-- A power of two; 1 for a negative exponent. -/
def twoTo (e : Int) : Nat := Nat.pow 2 e.toNat

/-- A power of ten; 1 for a negative exponent. -/
def tenTo (e : Int) : Nat := Nat.pow 10 e.toNat

inductive Double
  | nan
  | infinite (negative : Bool)
  | finite (negative : Bool) (significand : Nat) (exponent : Int)
  deriving DecidableEq, Repr, Inhabited

namespace Double

def minExponent : Int := -1074

def maxExponent : Int := 971

def zero : Double := .finite false 0 minExponent

/-- The quotient of two numbers as a whole number, the nearer one, the even one of two equally
near. -/
def roundHalfEven (num den : Nat) : Nat :=
  let q := num / den
  let r := num % den
  if 2 * r < den ∨ (2 * r = den ∧ q % 2 = 0) then q else q + 1

/-- Numerator and denominator of `num / den` counted in units of `2 ^ e`. -/
def inUnits (num den : Nat) (e : Int) : Nat × Nat := (num * twoTo (-e), den * twoTo e)

/-- The exponent that gives the quotient a significand of 53 bits, or the least exponent. -/
def exponentOf (num den : Nat) : Int :=
  let k : Int := (num.log2 : Int) - den.log2
  let u := inUnits num den (k - 52)
  max (if twoTo 52 ≤ u.1 / u.2 then k - 52 else k - 53) minExponent

def ofRatio (negative : Bool) (num den : Nat) : Double :=
  if num = 0 then .finite negative 0 minExponent
  else
    let e := exponentOf num den
    let u := inUnits num den e
    let q := roundHalfEven u.1 u.2
    let (q, e) := if q = twoTo 53 then (twoTo 52, e + 1) else (q, e)
    if maxExponent < e then .infinite negative else .finite negative q e

def ofInt (n : Int) : Double := ofRatio (decide (n < 0)) n.natAbs 1

/-- The number nearest to `digits * 10 ^ exponent`; an exponent far outside the range decides
alone. -/
def ofDecimal (negative : Bool) (digits : Nat) (exponent : Int) : Double :=
  if digits = 0 then .finite negative 0 minExponent
  else
    let size := exponent + (Nat.toDigits 10 digits).length
    if 400 < size then .infinite negative
    else if size < -400 then .finite negative 0 minExponent
    else ofRatio negative (digits * tenTo exponent) (tenTo (-exponent))

def isFinite : Double → Bool
  | .finite .. => true
  | _ => false

def ratio? : Double → Option (Int × Nat)
  | .finite s m e =>
    let n : Int := m * twoTo e
    some (if s then -n else n, twoTo (-e))
  | _ => none

def floor? (x : Double) : Option Int := x.ratio?.map fun r ↦ r.1.fdiv r.2

/-- The whole number without the fraction. -/
def truncate? (x : Double) : Option Int := x.ratio?.map fun r ↦ r.1.tdiv r.2

/-- The nearest whole number, the greater one of two equally near. -/
def nearest? (x : Double) : Option Int := x.ratio?.map fun r ↦ (2 * r.1 + r.2).fdiv (2 * r.2)

def whole? (x : Double) : Option Int :=
  x.ratio?.bind fun r ↦ if r.1.fmod r.2 = 0 then some (r.1.fdiv r.2) else none

def ratioLt (a b : Int × Nat) : Bool := decide (a.1 * b.2 < b.1 * a.2)

def neg : Double → Double
  | .nan => .nan
  | .infinite s => .infinite !s
  | .finite s m e => .finite (!s) m e

/-- The order of numbers; no number is below or above one that is not a number. -/
def lt : Double → Double → Bool
  | .nan, _ => false
  | _, .nan => false
  | .infinite s, .infinite t => s && !t
  | .infinite s, .finite .. => s
  | .finite .., .infinite t => !t
  | x@(.finite ..), y@(.finite ..) =>
    match x.ratio?, y.ratio? with
    | some a, some b => ratioLt a b
    | _, _ => false

/-- Equality of values: the two zeros are equal, what is not a number equals nothing. -/
def same : Double → Double → Bool
  | .nan, _ => false
  | _, .nan => false
  | x, y => !lt x y && !lt y x

def ofSignedRatio (n : Int) (den : Nat) : Double := ofRatio (decide (n < 0)) n.natAbs den

def add : Double → Double → Double
  | .nan, _ => .nan
  | _, .nan => .nan
  | .infinite s, .infinite t => if s = t then .infinite s else .nan
  | .infinite s, .finite .. => .infinite s
  | .finite .., .infinite t => .infinite t
  | x@(.finite s m _), y@(.finite t k _) =>
    if m = 0 ∧ k = 0 then .finite (s && t) 0 minExponent
    else
      match x.ratio?, y.ratio? with
      | some a, some b => ofSignedRatio (a.1 * b.2 + b.1 * a.2) (a.2 * b.2)
      | _, _ => .nan

def mul : Double → Double → Double
  | .nan, _ => .nan
  | _, .nan => .nan
  | .finite s m e, .finite t k f =>
    ofRatio (s != t) (m * k * twoTo (e + f)) (twoTo (-(e + f)))
  | .finite s m _, .infinite t => if m = 0 then .nan else .infinite (s != t)
  | .infinite s, .finite t k _ => if k = 0 then .nan else .infinite (s != t)
  | .infinite s, .infinite t => .infinite (s != t)

def div : Double → Double → Double
  | .nan, _ => .nan
  | _, .nan => .nan
  | .finite s m e, .finite t k f =>
    if k = 0 then (if m = 0 then .nan else .infinite (s != t))
    else ofRatio (s != t) (m * twoTo (e - f)) (k * twoTo (f - e))
  | .finite s _ _, .infinite t => .finite (s != t) 0 minExponent
  | .infinite s, .finite t _ _ => .infinite (s != t)
  | .infinite _, .infinite _ => .nan

/-- The sum of numbers from left to right, rounded after each addition. -/
def sum (xs : List Double) : Double := xs.foldl add zero

def bits : Double → Nat
  | .nan => 0x7ff8000000000000
  | .infinite s => (if s then twoTo 63 else 0) + 0x7ff0000000000000
  | .finite s m e =>
    (if s then twoTo 63 else 0) +
      if m < twoTo 52 then m else (e + 1075).toNat * twoTo 52 + (m - twoTo 52)

theorem floor?_finite (s : Bool) (m : Nat) (e : Int) : (finite s m e).floor?.isSome := rfl

@[simp] theorem add_nan (x : Double) : add x .nan = .nan := by cases x <;> rfl

end Double

/-- A number as it was given: whole or floating. -/
inductive Number
  | whole (n : Int)
  | real (x : Double)
  deriving DecidableEq, Repr, Inhabited

namespace Number

def isNan : Number → Bool
  | .real .nan => true
  | _ => false

/-- The order of numbers of both sorts by their exact values. What is not a number is neither below
nor above one. -/
def lt : Number → Number → Bool
  | .whole m, .whole n => decide (m < n)
  | .real x, .real y => x.lt y
  | .whole _, .real (.infinite s) => !s
  | .whole m, .real y => y.ratio?.any (Double.ratioLt (m, 1))
  | .real (.infinite s), .whole _ => s
  | .real x, .whole n => x.ratio?.any (Double.ratioLt · (n, 1))

def le (a b : Number) : Bool := !a.isNan && !b.isNan && !lt b a

def same (a b : Number) : Bool := le a b && le b a

theorem le_whole (m n : Int) : le (.whole m) (.whole n) = decide (m ≤ n) := by
  show (!decide (n < m)) = decide (m ≤ n)
  rw [← decide_not]
  exact decide_eq_decide.2 Int.not_lt

end Number

end Footfall
