import Footfall.Number.Extended
import Footfall.Text.Digit

/-!
The number at the front of a text: an optional sign, digits with an optional point among them, and
an exponent if it has digits. What follows is ignored, and a text without a number counts as zero.
The digits are kept as long as they fit in 63 bits, and the power of ten is a product of rounded
factors, so that the last bits of a long numeral may differ from those of the nearest number.
-/

namespace Footfall.Numeral

def isFrontBlank (c : Char) : Bool := c == ' ' || decide (9 ≤ c.toNat ∧ c.toNat ≤ 13)

def frontSign : List Char → Bool × List Char
  | '-' :: rest => (true, rest)
  | '+' :: rest => (false, rest)
  | rest => (false, rest)

def maxSignificand : Nat := 0x7fffffffffffffff

def isFull (s : Nat) : Bool := decide ((maxSignificand - 9) / 10 ≤ s)

/-- A significand with a power of ten. A digit that is no longer taken before the point raises the
power. -/
def takeWholeDigit (p : Nat × Int) (c : Char) : Nat × Int :=
  if isFull p.1 then (p.1, p.2 + 1) else (10 * p.1 + (c.toNat - 48), p.2)

def takeFractionDigit (p : Nat × Int) (c : Char) : Nat × Int :=
  if isFull p.1 then p else (10 * p.1 + (c.toNat - 48), p.2 - 1)

/-- The digits after a point, if there is one, and the rest. -/
def frontFraction : List Char → List Char × List Char
  | '.' :: rest => (rest.takeWhile Char.isDigit, rest.dropWhile Char.isDigit)
  | rest => ([], rest)

/-- The exponent at the front; beyond five digits its value does not matter. -/
def frontExponent : List Char → Int
  | c :: rest =>
    if c = 'e' ∨ c = 'E' then
      let (negative, rest) := frontSign rest
      Text.signed negative (min 10000 (Text.natural (rest.takeWhile Char.isDigit)))
    else 0
  | [] => 0

def absorb (s : Nat) : Nat → Nat × Nat
  | 0 => (s, 0)
  | n + 1 => if maxSignificand / 10 ≤ s then (s, n + 1) else absorb (10 * s) n

/-- Takes powers of ten out of the significand while they divide it. -/
def release (s : Nat) : Nat → Nat × Nat
  | 0 => (s, 0)
  | n + 1 => if s % 10 = 0 then release (s / 10) n else (s, n + 1)

/-- The power of ten that is applied last when the power is beyond the range. -/
def lastPower : Double := Double.ofDecimal false 1 308

def raised (negative : Bool) (s n : Nat) : Double :=
  let product (n : Nat) := ((Extended.ofNat s).mul (Extended.powerOfTen n)).toDouble negative
  if n ≤ 307 then product n
  else if n < 342 then (product (n - 308)).mul lastPower
  else .infinite negative

def lowered (negative : Bool) (s n : Nat) : Double :=
  let quotient (n : Nat) := ((Extended.ofNat s).div (Extended.powerOfTen n)).toDouble negative
  if n ≤ 307 then quotient n
  else if n < 342 then (quotient (n - 308)).div lastPower
  else .finite negative 0 Double.minExponent

def scaledReal (negative : Bool) (s : Nat) (e : Int) : Double :=
  if s = 0 then .finite negative 0 Double.minExponent
  else
    let (t, n) := if 0 ≤ e then absorb s e.toNat else release s (-e).toNat
    if n = 0 then Double.ofRatio negative t 1
    else if 0 ≤ e then raised negative t n
    else lowered negative t n

/-- What follows an exponent at the front, if it has digits. -/
def afterExponent : List Char → Option (List Char)
  | c :: rest =>
    if c = 'e' ∨ c = 'E' then
      let cs := (frontSign rest).2
      if cs.head?.any Char.isDigit then some (cs.dropWhile Char.isDigit) else none
    else some (c :: rest)
  | [] => some []

/-- Whether a text is nothing but a number, with or without blanks at its ends. -/
def isNumber (text : String) : Bool :=
  let cs := (frontSign (text.toList.dropWhile isFrontBlank)).2
  let (fraction, rest) := frontFraction (cs.dropWhile Char.isDigit)
  (cs.head?.any Char.isDigit || !fraction.isEmpty) &&
    (afterExponent rest).any (·.all isFrontBlank)

def frontReal (text : String) : Double :=
  let (negative, cs) := frontSign (text.toList.dropWhile isFrontBlank)
  let (fraction, rest) := frontFraction (cs.dropWhile Char.isDigit)
  let p := (cs.takeWhile Char.isDigit).foldl takeWholeDigit (0, 0)
  let p := fraction.foldl takeFractionDigit p
  scaledReal negative p.1 (p.2 + frontExponent rest)

/-- The digits of a text in which nothing else stands but a sign and blanks. -/
def frontWhole? (text : String) : Option Int :=
  let (negative, cs) := frontSign (text.toList.dropWhile isFrontBlank)
  let ds := cs.takeWhile Char.isDigit
  if !ds.isEmpty && (cs.dropWhile Char.isDigit).all isFrontBlank then
    some (Text.signed negative (Text.natural ds))
  else none

end Footfall.Numeral
