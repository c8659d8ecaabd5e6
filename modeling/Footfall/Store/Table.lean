import Footfall.Fault
import Footfall.Store.Column

/-!
The events table: its rows in the order in which they were stored, each with a number one above the
greatest of the rows before it. A batch is stored as a whole or not at all.
-/

namespace Footfall

abbrev Table := List StoredEvent

/-- Whether a table can hold a whole number, which must have at most 64 bits. -/
def fitsTable (n : Int) : Bool := decide (-0x8000000000000000 ≤ n ∧ n < 0x8000000000000000)

def StoredEvent.numbers (e : StoredEvent) : List Int :=
  [e.id, e.site] ++ e.team.toList ++ e.context.screenWidth.toList ++ e.context.screenHeight.toList

/-- A record with the site and team that it is stored under. -/
structure Entry where
  record : EventRecord
  site : Int
  team : Option Int
  deriving BEq, Repr

/-- The row of an entry. A record without times takes that of the clock; the account is the team. -/
def Entry.row (e : Entry) (id : Int) (now : Instant) : StoredEvent :=
  { id := id, site := e.site, tag := e.record.tag, account := e.team, team := e.team,
    event := e.record.event, context := e.record.context,
    createdAt := e.record.createdAt.getD now, updatedAt := e.record.updatedAt.getD now }

namespace Table

def nextId (t : Table) : Int := ((t.map (·.id)).max?.map (· + 1)).getD 1

def add (t : Table) (now : Instant) (e : Entry) : Except Fault (Table × StoredEvent) :=
  let row := e.row t.nextId now
  if row.numbers.all fitsTable then .ok (t ++ [row], row) else .error .hugeForStore

def addAll (t : Table) (now : Instant) : List Entry → Except Fault (Table × List StoredEvent)
  | [] => .ok (t, [])
  | e :: es => do
    let (t, row) ← t.add now e
    let (t, rows) ← addAll t now es
    return (t, row :: rows)

/-- What is stored is added at the end, in order. -/
theorem addAll_eq_ok {t t' : Table} {now : Instant} {es : List Entry} {rows : List StoredEvent}
    (h : t.addAll now es = .ok (t', rows)) : t' = t ++ rows := by
  induction es generalizing t t' rows with
  | nil =>
    cases h
    simp
  | cons e es ih =>
    unfold addAll add at h
    by_cases hf : (e.row t.nextId now).numbers.all fitsTable
    · simp only [hf, if_true, bind, Except.bind] at h
      split at h
      · cases h
      · rename_i p hp
        cases h
        rw [ih hp]
        simp
    · simp [hf, bind, Except.bind] at h

end Table

end Footfall
