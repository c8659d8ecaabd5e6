import Footfall.Number.Double

/-!
Positive binary numbers whose significand has 64 bits and whose exponent is not bounded. They carry
the steps of a computation whose last step rounds to a number of 53 bits.
-/

namespace Footfall

/-- The value `significand * 2 ^ exponent`. -/
structure Extended where
  significand : Nat
  exponent : Int
  deriving DecidableEq, Repr

namespace Extended

/-- The exponent that gives a quotient a significand of 64 bits. -/
def exponentOf (num den : Nat) : Int :=
  let k : Int := (num.log2 : Int) - den.log2
  let u := Double.inUnits num den (k - 63)
  if twoTo 63 ≤ u.1 / u.2 then k - 63 else k - 64

/-- The number nearest to `num / den`, ties to the even significand. -/
def ofRatio (num den : Nat) : Extended :=
  let e := exponentOf num den
  let u := Double.inUnits num den e
  ⟨Double.roundHalfEven u.1 u.2, e⟩

def ofNat (n : Nat) : Extended := ofRatio n 1

/-- The value of a rounded ratio in units of `2 ^ e`. -/
def scaled (x : Extended) (e : Int) : Extended := ⟨x.significand, x.exponent + e⟩

def mul (x y : Extended) : Extended :=
  (ofNat (x.significand * y.significand)).scaled (x.exponent + y.exponent)

def div (x y : Extended) : Extended :=
  (ofRatio x.significand y.significand).scaled (x.exponent - y.exponent)

def mulPower (r x : Extended) (n : Nat) : Extended :=
  if n = 0 then r else mulPower (if n % 2 = 1 then r.mul x else r) (x.mul x) (n / 2)
termination_by n

/-- A power of ten; each product on the way is rounded. -/
def powerOfTen (n : Nat) : Extended := mulPower (ofNat 1) (ofNat 10) n

def toDouble (negative : Bool) (x : Extended) : Double :=
  Double.ofRatio negative (x.significand * twoTo x.exponent) (twoTo (-x.exponent))

end Extended

end Footfall
