import Footfall.Text.Quoted

/-!
Texts written as bytes of one, two or four at a time. The scheme is told from a mark at the front or
from where zero bytes stand in the first four, since a document starts with an ASCII character.
Half of a surrogate pair is read as the replacement character.
-/

namespace Footfall.Text

inductive Scheme
  | bytes
  | pairs (bigEndian : Bool)
  | quads (bigEndian : Bool)
  deriving DecidableEq, Repr

def Scheme.name : Scheme → String
  | .bytes => "utf-8"
  | .pairs big => if big then "utf-16-be" else "utf-16-le"
  | .quads big => if big then "utf-32-be" else "utf-32-le"

inductive Reason
  | start
  | continuation
  | unfinished
  | truncated
  | range
  deriving DecidableEq, Repr

def Reason.message : Reason → String
  | .start => "invalid start byte"
  | .continuation => "invalid continuation byte"
  | .unfinished => "unexpected end of data"
  | .truncated => "truncated data"
  | .range => "code point not in range(0x110000)"

/-- The bytes that could not be decoded, the position of the first, and why. -/
structure Undecodable where
  scheme : Scheme
  position : Nat
  found : List UInt8
  reason : Reason
  deriving Repr

def Undecodable.message (e : Undecodable) : String :=
  let place := match e.found with
    | [b] => s!"byte 0x{String.ofList (hex 2 b.toNat)} in position {e.position}"
    | bs => s!"bytes in position {e.position}-{e.position + bs.length - 1}"
  s!"'{e.scheme.name}' codec can't decode {place}: {e.reason.message}"

/-- Characters outside ASCII, one or several side by side, where only ASCII may stand. -/
structure Unencodable where
  position : Nat
  found : List Char
  deriving Repr

/-- The first characters outside ASCII, where positions count from a given one. -/
def unencodable? (position : Nat) (cs : List Char) : Option Unencodable :=
  let isPlain c := decide (Char.toNat c < 128)
  let front := cs.takeWhile isPlain
  let found := (cs.dropWhile isPlain).takeWhile (!isPlain ·)
  if found.isEmpty then none else some ⟨position + front.length, found⟩

/-- The escape that stands for a character outside ASCII in messages. -/
def Unencodable.escape (c : Char) : String :=
  if c.toNat < 0x100 then "\\x" ++ String.ofList (hex 2 c.toNat)
  else if c.toNat < 0x10000 then "\\u" ++ String.ofList (hex 4 c.toNat)
  else "\\U" ++ String.ofList (hex 8 c.toNat)

def Unencodable.message (e : Unencodable) : String :=
  let place := match e.found with
    | [c] => s!"character '{escape c}' in position {e.position}"
    | cs => s!"characters in position {e.position}-{e.position + cs.length - 1}"
  s!"'ascii' codec can't encode {place}: ordinal not in range(128)"

/-- The character of a code point, or the replacement character for half of a pair. -/
def charOf (n : Nat) : Char := if n.isValidChar then Char.ofNat n else '\ufffd'

/-- A sequence of bytes that has begun: what must follow and what has been seen. -/
structure Pending where
  ranges : List (Nat × Nat)
  value : Nat
  seen : List UInt8

/-- The ranges of the bytes that may follow a first byte, and the bits that it carries. -/
def lead? (b : Nat) : Option (List (Nat × Nat) × Nat) :=
  let any := (0x80, 0xbf)
  if 0xc2 ≤ b ∧ b ≤ 0xdf then some ([any], b - 0xc0)
  else if b = 0xe0 then some ([(0xa0, 0xbf), any], 0)
  else if b = 0xed then some ([(0x80, 0x9f), any], 0xd)
  else if 0xe1 ≤ b ∧ b ≤ 0xef then some ([any, any], b - 0xe0)
  else if b = 0xf0 then some ([(0x90, 0xbf), any, any], 0)
  else if 0xf1 ≤ b ∧ b ≤ 0xf3 then some ([any, any, any], b - 0xf0)
  else if b = 0xf4 then some ([(0x80, 0x8f), any, any], 4)
  else none

def decodeBytes (position : Nat) : Option Pending → List UInt8 → Except Undecodable (List Char)
  | none, [] => .ok []
  | some p, [] => .error ⟨.bytes, position - p.seen.length, p.seen, .unfinished⟩
  | none, b :: rest =>
    if b.toNat < 0x80 then do
      return Char.ofNat b.toNat :: (← decodeBytes (position + 1) none rest)
    else
      match lead? b.toNat with
      | some (ranges, value) => decodeBytes (position + 1) (some ⟨ranges, value, [b]⟩) rest
      | none => .error ⟨.bytes, position, [b], .start⟩
  | some p, b :: rest =>
    match p.ranges with
    | (low, high) :: ranges =>
      if low ≤ b.toNat ∧ b.toNat ≤ high then
        let value := p.value * 64 + (b.toNat - 0x80)
        if ranges.isEmpty then do
          return charOf value :: (← decodeBytes (position + 1) none rest)
        else decodeBytes (position + 1) (some ⟨ranges, value, p.seen ++ [b]⟩) rest
      else .error ⟨.bytes, position - p.seen.length, p.seen, .continuation⟩
    | [] => .error ⟨.bytes, position - p.seen.length, p.seen, .continuation⟩

/-- Decodes and puts the replacement character for what cannot be decoded. The first argument bounds
the number of places where that happens. -/
def decodeLossyFrom : Nat → List UInt8 → List Char
  | 0, _ => []
  | n + 1, bs =>
    match decodeBytes 0 none bs with
    | .ok cs => cs
    | .error e =>
      (match decodeBytes 0 none (bs.take e.position) with
        | .ok cs => cs
        | .error _ => []) ++
        '\ufffd' :: decodeLossyFrom n (bs.drop (e.position + max 1 e.found.length))

def decodeLossy (bs : List UInt8) : List Char := decodeLossyFrom (bs.length + 1) bs

/-- Puts the bytes of the replacement character for those of half of a surrogate pair. -/
def replaceHalves : List UInt8 → List UInt8
  | [] => []
  | a :: b :: c :: rest =>
    if a = 0xed ∧ 0xa0 ≤ b ∧ b ≤ 0xbf ∧ 0x80 ≤ c ∧ c ≤ 0xbf then
      0xef :: 0xbf :: 0xbd :: replaceHalves rest
    else a :: replaceHalves (b :: c :: rest)
  | a :: rest => a :: replaceHalves rest

def unit (big : Bool) (a b : UInt8) : Nat :=
  if big then a.toNat * 256 + b.toNat else b.toNat * 256 + a.toNat

/-- Decodes pairs of bytes; `high` is the first half of a surrogate pair that waits for the
second. -/
def decodePairs (big : Bool) (position : Nat) :
    Option Nat → List UInt8 → Except Undecodable (List Char)
  | none, [] => .ok []
  | some _, [] => .ok ['\ufffd']
  | _, [b] => .error ⟨.pairs big, position, [b], .truncated⟩
  | high, a :: b :: rest =>
    let n := unit big a b
    let isHigh := decide (0xd800 ≤ n ∧ n < 0xdc00)
    let isLow := decide (0xdc00 ≤ n ∧ n < 0xe000)
    match high with
    | some h =>
      if isLow then do
        let c := 0x10000 + (h - 0xd800) * 0x400 + (n - 0xdc00)
        return charOf c :: (← decodePairs big (position + 2) none rest)
      else if isHigh then do
        return '\ufffd' :: (← decodePairs big (position + 2) (some n) rest)
      else do
        return '\ufffd' :: charOf n :: (← decodePairs big (position + 2) none rest)
    | none =>
      if isHigh then decodePairs big (position + 2) (some n) rest
      else do return charOf n :: (← decodePairs big (position + 2) none rest)

def decodeQuads (big : Bool) (position : Nat) : List UInt8 → Except Undecodable (List Char)
  | [] => .ok []
  | a :: b :: c :: d :: rest =>
    let n := if big then unit big a b * 65536 + unit big c d
      else unit big c d * 65536 + unit big a b
    if 0x110000 ≤ n then .error ⟨.quads big, position, [a, b, c, d], .range⟩
    else do return charOf n :: (← decodeQuads big (position + 4) rest)
  | left => .error ⟨.quads big, position, left, .truncated⟩

def Scheme.decode (position : Nat) : Scheme → List UInt8 → Except Undecodable (List Char)
  | .bytes => decodeBytes position none ∘ replaceHalves
  | .pairs big => decodePairs big position none
  | .quads big => decodeQuads big position

/-- The scheme of some bytes, and how many bytes the mark at the front takes. -/
def detect : List UInt8 → Scheme × Nat
  | 0x00 :: 0x00 :: 0xfe :: 0xff :: _ => (.quads true, 4)
  | 0xff :: 0xfe :: 0x00 :: 0x00 :: _ => (.quads false, 4)
  | 0xfe :: 0xff :: _ => (.pairs true, 2)
  | 0xff :: 0xfe :: _ => (.pairs false, 2)
  | 0xef :: 0xbb :: 0xbf :: _ => (.bytes, 3)
  | a :: b :: c :: d :: _ =>
    if a = 0 then (if b = 0 then .quads true else .pairs true, 0)
    else if b = 0 then (if c = 0 ∧ d = 0 then .quads false else .pairs false, 0)
    else (.bytes, 0)
  | [a, b] => (if a = 0 then .pairs true else if b = 0 then .pairs false else .bytes, 0)
  | _ => (.bytes, 0)

/-- Decodes some bytes. Positions count from the front, in single bytes from behind the mark. -/
def decode (bs : List UInt8) : Except Undecodable (List Char) :=
  let (scheme, mark) := detect bs
  scheme.decode (if scheme = .bytes then 0 else mark) (bs.drop mark)

theorem decodeBytes_ascii (bs : List UInt8) (h : ∀ b ∈ bs, b.toNat < 0x80) (position : Nat) :
    decodeBytes position none bs = .ok (bs.map fun b ↦ Char.ofNat b.toNat) := by
  induction bs generalizing position with
  | nil => rfl
  | cons b rest ih =>
    have hb := h b (by simp)
    have hr := ih (fun c hc ↦ h c (by simp [hc])) (position + 1)
    simp [decodeBytes, hb, hr, bind, Except.bind, pure, Except.pure]

end Footfall.Text
