import Footfall.Failure
import Footfall.Value.Convert
import Footfall.Value.Order

/-!
Work under a deadline. A deadline in the past cancels any work, and work under it does not even
begin. One in the future cancels work that never ends and leaves all other work as it is. A deadline
that passes at once leaves time for work that hardly pauses.
-/

namespace Footfall

inductive Work (α : Type)
  /-- Work that ends after a number of pauses. -/
  | done (result : Except Failure α) (pauses : Nat := 0)
  | unending

/-- How long work may take, in seconds; null is no limit. -/
structure TimeLimit where
  seconds : Value := .null
  deriving Repr, Inhabited

namespace TimeLimit

/-- A limit of less than two microseconds, or one that is not a number, passes at once. -/
def passesAtOnce (l : TimeLimit) : Bool :=
  l.seconds.number?.any fun n ↦ !Number.le (.real (Double.ofDecimal false 2 (-6))) n

def start (l : TimeLimit) : Except Failure Unit := do
  if !l.seconds.isNull then
    if ← (l.seconds.atMost (.int 0)).mapError .fault then throw (.deadline l.seconds)
    discard (l.seconds.toReal.mapError .fault)

end TimeLimit

namespace Work

variable {α : Type}

/-- The most pauses for which a deadline that passes at once leaves time. -/
def promptPauses : Nat := 1

/-- The pauses of work that asks a store; there are at least that many. -/
def storePauses : Nat := 2

def under (l : TimeLimit) (w : Work α) : Work α :=
  match l.start with
  | .error e => .done (.error e)
  | .ok () =>
    match w with
    | .unending => if l.seconds.isNull then .unending else .done (.error (.deadline l.seconds))
    | .done r pauses =>
      if l.passesAtOnce && decide (promptPauses < pauses) then
        .done (.error (.deadline l.seconds))
      else .done r pauses

@[simp] theorem under_none (w : Work α) : w.under {} = w := by cases w <;> rfl

/-- Work under a deadline ends. -/
theorem under_ne_unending {l : TimeLimit} (h : l.seconds.isNull = false) (w : Work α) :
    w.under l ≠ .unending := by
  unfold under
  cases l.start <;> cases w <;> simp [h]
  split <;> simp

end Work

end Footfall
