import Footfall.Number.Double

/-!
The text of a floating-point number: of the decimals that read back as the number, one with the
fewest digits, and of those the nearest. A `Notation` says how the digits are laid out.
-/

namespace Footfall

/-- The value `digits * 10 ^ exponent`. -/
structure Decimal where
  digits : Nat
  exponent : Int
  deriving DecidableEq, Repr

namespace Decimal

/-- Whether `d * 10 ^ k` is at least `x * 2 ^ e`. -/
def atLeast (d : Nat) (k : Int) (x : Nat) (e : Int) : Bool :=
  decide (x * twoTo e * tenTo (-k) ≤ d * tenTo k * twoTo (-e))

/-- Whether `d * 10 ^ k` is at most `x * 2 ^ e`. -/
def atMost (d : Nat) (k : Int) (x : Nat) (e : Int) : Bool :=
  decide (d * tenTo k * twoTo (-e) ≤ x * twoTo e * tenTo (-k))

/-- The decimals that round to `m * 2 ^ e`: the ends lie half way to the neighbours and belong to
the interval when the significand is even. -/
def readsBack (m : Nat) (e : Int) (d : Nat) (k : Int) : Bool :=
  let low := if m = twoTo 52 ∧ Double.minExponent < e then 4 * m - 1 else 4 * m - 2
  let high := 4 * m + 2
  if m % 2 = 0 then atLeast d k low (e - 2) && atMost d k high (e - 2)
  else !atMost d k low (e - 2) && !atLeast d k high (e - 2)

/-- The multiples of `10 ^ k` on both sides of `m * 2 ^ e`, the lower one and whether the upper one
is nearer. -/
def neighbours (m : Nat) (e : Int) (k : Int) : Nat × Bool :=
  let num := m * twoTo e * tenTo (-k)
  let den := tenTo k * twoTo (-e)
  let d := num / den
  let twice := 2 * (num % den)
  (d, decide (den < twice ∨ (twice = den ∧ d % 2 = 1)))

/-- A decimal on the grid of multiples of `10 ^ k` that reads back as `m * 2 ^ e`, the nearer of
two. -/
def onGrid (m : Nat) (e : Int) (k : Int) : Option Decimal :=
  let (d, upperIsNearer) := neighbours m e k
  let lower := if readsBack m e d k then some ⟨d, k⟩ else none
  let upper := if readsBack m e (d + 1) k then some ⟨d + 1, k⟩ else none
  if upperIsNearer then upper.or lower else lower.or upper

/-- The decimal exponent of the first digit of `m * 2 ^ e`. -/
def leadingExponent (m : Nat) (e : Int) : Int :=
  let guess := (((m.log2 : Int) + e) * 30103).fdiv 100000
  if atMost 1 (guess + 1) m e then guess + 1
  else if atMost 1 guess m e then guess
  else guess - 1

def search (m : Nat) (e : Int) (k : Int) : Nat → Option Decimal
  | 0 => none
  | n + 1 => (onGrid m e k).or (search m e (k - 1) n)

/-- The shortest decimal that reads back as `m * 2 ^ e`. -/
def shortest (m : Nat) (e : Int) : Decimal :=
  (search m e (leadingExponent m e) 18).getD ⟨m * twoTo e, 0⟩

/-- The most digits of a number in a column of text. -/
def columnDigits : Nat := 15

/-- The decimal nearest to `m * 2 ^ e` that has at most that many digits. -/
def inColumn (m : Nat) (e : Int) : Decimal :=
  let k := leadingExponent m e - (columnDigits - 1)
  let (d, upperIsNearer) := neighbours m e k
  ⟨if upperIsNearer then d + 1 else d, k⟩

end Decimal

/-- How the digits of a number are laid out: the exponents of the first digit that are written
positionally, whether a single digit in front of an exponent is followed by a point and a zero, and
the texts of what has no digits. -/
structure Notation where
  leastPositional : Int
  mostPositional : Int
  isPadded : Bool
  nan : String
  infinity : String

namespace Notation

def exponentText (x : Int) : String :=
  let digits := toString x.natAbs
  (if x < 0 then "e-" else "e+") ++ (if digits.length < 2 then "0" ++ digits else digits)

def zeros (n : Nat) : String := String.ofList (List.replicate n '0')

/-- The digits with a point, at least one digit on both sides of it, or with an exponent. -/
def layout (f : Notation) (d : Decimal) : String :=
  let digits := ((Nat.toDigits 10 d.digits).reverse.dropWhile (· == '0')).reverse
  let lead := (Nat.toDigits 10 d.digits).length + d.exponent - 1
  if f.leastPositional ≤ lead ∧ lead ≤ f.mostPositional then
    if lead < 0 then "0." ++ zeros (-lead - 1).toNat ++ String.ofList digits
    else
      let n := lead.toNat + 1
      if digits.length ≤ n then String.ofList digits ++ zeros (n - digits.length) ++ ".0"
      else String.ofList (digits.take n) ++ "." ++ String.ofList (digits.drop n)
  else
    String.ofList (digits.take 1) ++
      (if 1 < digits.length then "." ++ String.ofList (digits.drop 1)
       else if f.isPadded then ".0" else "") ++ exponentText lead

def write (f : Notation) : Double → String
  | .nan => f.nan
  | .infinite s => (if s then "-" else "") ++ f.infinity
  | .finite s 0 _ => if s then "-0.0" else "0.0"
  | .finite s m e => (if s then "-" else "") ++ f.layout (Decimal.shortest m e)

/-- Numbers in messages are positional from 0.0001 up to 16 digits. -/
def plain : Notation := ⟨-4, 15, false, "nan", "inf"⟩

def document : Notation := ⟨-4, 15, false, "NaN", "Infinity"⟩

/-- Numbers in columns of text are positional up to 15 digits. -/
def column : Notation := ⟨-4, 14, true, "", "Inf"⟩

end Notation

def Double.text (x : Double) : String := Notation.plain.write x

/-- The text of a number that is compared with a column of text. -/
def Double.columnText : Double → String
  | .finite _ 0 _ => "0.0"
  | .finite s m e => (if s then "-" else "") ++ Notation.column.layout (Decimal.inColumn m e)
  | x => Notation.column.write x

def Number.text : Number → String
  | .whole n => toString n
  | .real x => x.text

end Footfall
