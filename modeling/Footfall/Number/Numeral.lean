import Footfall.Number.Double
import Footfall.Text.Blank
import Footfall.Text.Digit

/-!
Reading numerals. Digits of every script count, white space may stand at the ends, and a single low
line may stand between two digits.
-/

namespace Footfall.Numeral

open Text

/-- The digit values at the front, where a single low line may part two digits, and what
follows. -/
def digitRun : List Char → List Nat × List Char
  | [] => ([], [])
  | [c] =>
    match digitValue? c with
    | some d => ([d], [])
    | none => ([], [c])
  | c :: c' :: rest =>
    match digitValue? c with
    | none => ([], c :: c' :: rest)
    | some d =>
      if c' = '_' then
        if ((rest.head?.bind digitValue?).isSome) then
          let (ds, after) := digitRun rest
          (d :: ds, after)
        else ([d], c' :: rest)
      else
        let (ds, after) := digitRun (c' :: rest)
        (d :: ds, after)

def ofDigits (ds : List Nat) : Nat := ds.foldl (fun n d ↦ 10 * n + d) 0

def sign : List Char → Bool × List Char
  | '-' :: rest => (true, rest)
  | '+' :: rest => (false, rest)
  | rest => (false, rest)

/-- The most digits that a whole number may be read from. -/
def maxDigits : Nat := 4300

inductive Refusal
  | notANumeral
  | tooLong (digits : Nat)
  deriving DecidableEq, Repr

def hasDoubleLine : List Char → Bool
  | '_' :: '_' :: _ => true
  | _ :: rest => hasDoubleLine rest
  | [] => false

/-- Whether each low line stands alone, and none at an end. -/
def areLinesInside (cs : List Char) : Bool :=
  cs.head? != some '_' && cs.getLast? != some '_' && !hasDoubleLine cs

/-- Reads a whole number in decimal. The count of the digits is looked at before what follows
them. -/
def readWhole (cs : List Char) : Except Refusal Int :=
  let (negative, body) := sign (trimBy isSpace cs)
  let run := body.takeWhile fun c ↦ c == '_' || (digitValue? c).isSome
  let ds := run.filterMap digitValue?
  if ds.isEmpty || !areLinesInside run then .error .notANumeral
  else if maxDigits < ds.length then .error (.tooLong ds.length)
  else if run.length < body.length then .error .notANumeral
  else .ok (signed negative (ofDigits ds))

def readExponent : List Char → Option Int
  | [] => some 0
  | e :: rest =>
    if e = 'e' ∨ e = 'E' then
      let (negative, body) := sign rest
      match digitRun body with
      | ([], _) => none
      | (ds, []) => some (signed negative (ofDigits ds))
      | (_, _ :: _) => none
    else none

/-- A numeral with digits on at least one side of the point. -/
def readDecimal (negative : Bool) (body : List Char) : Option Double :=
  let (whole, rest) := digitRun body
  let (fraction, rest) :=
    match rest with
    | '.' :: rest => digitRun rest
    | rest => ([], rest)
  if whole.isEmpty && fraction.isEmpty then none
  else
    (readExponent rest).map fun e ↦
      Double.ofDecimal negative (ofDigits (whole ++ fraction)) (e - fraction.length)

/-- The letters of a word in lower case, ASCII letters only. -/
def lower (cs : List Char) : List Char := cs.map Char.toLower

/-- Reads a floating-point number: a decimal, an infinity, or what is not a number. -/
def readReal? (cs : List Char) : Option Double :=
  let (negative, body) := sign (trimBy isSpace cs)
  let word := String.ofList (lower body)
  if word = "inf" ∨ word = "infinity" then some (.infinite negative)
  else if word = "nan" then some .nan
  else readDecimal negative body

end Footfall.Numeral
