import Footfall.Http.Address

/-!
The target of a request: a path and parameters, both percent-encoded. A plus sign in parameters
stands for a space. What is no code of UTF-8 is replaced.
-/

namespace Footfall.Http

/-- The bytes that a percent-encoded text stands for. A percent sign without two digits after it
stands for itself. -/
def percentBytes : List Char → List UInt8
  | [] => []
  | '%' :: a :: b :: rest =>
    match Json.hexValue? a, Json.hexValue? b with
    | some x, some y => UInt8.ofNat (16 * x + y) :: percentBytes rest
    | _, _ => 37 :: percentBytes (a :: b :: rest)
  | c :: rest => (String.ofList [c]).toUTF8.toList ++ percentBytes rest

def unescape (cs : List Char) : String := String.ofList (Text.decodeLossy (percentBytes cs))

def plusToSpace (c : Char) : Char := if c = '+' then ' ' else c

/-- A parameter with its value, which is empty when there is no sign of equality. -/
def readParameter (cs : List Char) : String × String :=
  let name := (cs.takeWhile (· ≠ '=')).map plusToSpace
  let value := ((cs.dropWhile (· ≠ '=')).drop 1).map plusToSpace
  (unescape name, unescape value)

structure Target where
  path : String
  parameters : List (String × String)
  deriving DecidableEq, Repr

def mount : String := "/api"

def readParameters (query : String) : List (String × String) :=
  ((query.splitOn "&").filter (!·.isEmpty)).map fun p ↦ readParameter p.toList

/-- Reads a target, which is named from the mount on; a fragment is no part of it. -/
def Target.read (text : String) : Except AddressFault Target := do
  let a ← Address.read "" (mount ++ text)
  return ⟨unescape a.path.toList, readParameters (a.query.getD "")⟩

/-- The path without slashes at its end. -/
def withoutSlashes (path : String) : String :=
  String.ofList ((path.toList.reverse.dropWhile (· == '/')).reverse)

end Footfall.Http
