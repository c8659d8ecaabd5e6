import Footfall.Number.Front
import Footfall.Number.Shortest
import Footfall.Store.Table
import Footfall.Value.Order

/-!
Parameters: values of unknown shape as they are compared with the columns of a table. A column of
whole numbers takes a numeral for its number, and a column of text takes a number for its text; what
has no value equals nothing.
-/

namespace Footfall

inductive Parameter
  | null
  | whole (n : Int)
  | real (x : Double)
  | text (s : String)
  | bytes
  deriving DecidableEq, Repr

/-- Why a value is no parameter: it is a number of more than 64 bits, or of a sort that no column
has. -/
inductive Unbindable
  | huge
  | unsupported
  deriving DecidableEq, Repr

namespace Numeral

/-- The whole number that a text counts as beside whole numbers. -/
def columnWhole? (s : String) : Option Int :=
  match (frontWhole? s).filter fitsTable with
  | some n => some n
  | none => if isNumber s then (frontReal s).whole? else none

end Numeral

namespace Parameter

def ofValue : Value → Except Unbindable Parameter
  | .null => .ok .null
  | .bool b => .ok (.whole b.toNat)
  | .int n => if fitsTable n then .ok (.whole n) else .error .huge
  | .float .nan => .ok .null
  | .float x => .ok (.real x)
  | .text s => .ok (.text s)
  | .bytes _ => .ok .bytes
  | .date d => .ok (.text d.text)
  | .time t => .ok (.text t.wall.storedText)
  | .list _ | .object _ => .error .unsupported

def isWhole (n : Int) : Parameter → Bool
  | .whole m => m == n
  | .real x => x.whole? == some n
  | .text s => Numeral.columnWhole? s == some n
  | .null | .bytes => false

def isText (s : String) : Parameter → Bool
  | .whole n => toString n == s
  | .real x => x.columnText == s
  | .text t => t == s
  | .null | .bytes => false

theorem ofValue_int {n : Int} (h : fitsTable n = true) : ofValue (.int n) = .ok (.whole n) := by
  simp [ofValue, h]

end Parameter

end Footfall
