import Footfall.Query.Page
import Footfall.Store.Table

/-!
Listings: one page of the events that meet the filters, the newest first, with the number of those
that meet them and of all. A table that teams share is asked under conditions that keep a statement
to one team and site; each statement has to meet them beside those of its own.
-/

namespace Footfall

/-- Conditions on the rows that a statement concerns. All of them have to be met. -/
abbrev Conditions := List (StoredEvent → Bool)

/-- The conditions of a range; a missing bound imposes nothing. -/
def DateRange.conditions (r : DateRange) : Conditions :=
  (r.start.map fun a e ↦ decide (a ≤ e.createdAt)).toList ++
    (r.last.map fun b e ↦ decide (e.createdAt ≤ b)).toList

/-- The condition of a text filter; an absent or empty filter is none. -/
def textConditions (filter : Option String) (field : StoredEvent → Option String) : Conditions :=
  match filter with
  | none => []
  | some s => if s.isEmpty then [] else [fun e ↦ field e == some s]

namespace EventFilters

def conditions (f : EventFilters) : Conditions :=
  f.range.conditions ++ textConditions f.event (fun e ↦ some e.event) ++
    textConditions f.country (·.context.country) ++
    textConditions f.device (·.context.deviceType) ++ textConditions f.referer (·.context.referer)

def accepts (f : EventFilters) (e : StoredEvent) : Bool := f.conditions.all (· e)

end EventFilters

namespace Table

/-- The rows that meet all conditions. -/
def meeting (t : Table) (cs : Conditions) : Table := t.filter fun e ↦ cs.all (· e)

def count (t : Table) (cs : Conditions) : Nat := (t.meeting cs).length

/-- Whether some row meets all conditions. -/
def hasAny (t : Table) (cs : Conditions := []) : Bool := !(t.meeting cs).isEmpty

/-- Newer events come first, and of those of one instant the later stored. -/
def isNewer (a b : StoredEvent) : Bool :=
  decide (b.createdAt < a.createdAt) || (a.createdAt == b.createdAt && decide (b.id ≤ a.id))

/-- At most a number of items; a negative number is no bound. -/
def limited {α : Type} (n : Int) (xs : List α) : List α := if n < 0 then xs else xs.take n.toNat

def pageOf {α : Type} (offset limit : Int) (xs : List α) : List α :=
  limited limit (xs.drop offset.toNat)

def matching (t : Table) (f : EventFilters) (base : Conditions := []) : List StoredEvent :=
  (t.meeting (base ++ f.conditions)).mergeSort isNewer

def fitsPage (offset limit : Int) : Bool := fitsTable offset && fitsTable limit

/-- A page of the rows that meet the base conditions and the filters, with two counts. All rows that
meet the base conditions are counted by themselves only if there is a filter. -/
def list (t : Table) (f : EventFilters) (base : Conditions := []) : Except Fault EventPage :=
  if fitsPage f.offset f.limit then
    let total := t.count (base ++ f.conditions)
    let all := if f.conditions.isEmpty then total else t.count base
    .ok ⟨some (pageOf f.offset f.limit (t.matching f base)), .build f.offset f.limit total, some all⟩
  else .error .hugeForStore

@[simp] theorem meeting_nil (t : Table) : t.meeting [] = t := by
  simp [meeting]

theorem meeting_append (t : Table) (a b : Conditions) :
    t.meeting (a ++ b) = (t.meeting a).meeting b := by
  simp [meeting, List.filter_filter, Bool.and_comm]

theorem matching_eq (t : Table) (f : EventFilters) :
    t.matching f = (t.filter f.accepts).mergeSort isNewer := rfl

theorem mem_matching {t : Table} {f : EventFilters} {e : StoredEvent} :
    e ∈ t.matching f ↔ e ∈ t ∧ f.accepts e = true := by
  simp [matching_eq]

theorem length_matching (t : Table) (f : EventFilters) :
    (t.matching f).length = t.countP f.accepts := by
  simp [matching_eq, List.countP_eq_length_filter]

@[simp] theorem accepts_default (e : StoredEvent) : ({} : EventFilters).accepts e = true := by
  simp [EventFilters.accepts, EventFilters.conditions, EventFilters.range, DateRange.conditions,
    DateRange.last, textConditions]

theorem list_eq (t : Table) (f : EventFilters) :
    t.list f = if fitsPage f.offset f.limit then
        .ok ⟨some (pageOf f.offset f.limit (t.matching f)),
          .build f.offset f.limit (t.matching f).length, some t.length⟩
      else .error .hugeForStore := by
  have hlength : (t.matching f).length = t.count f.conditions := by
    simp [matching, count]
  have hall : (if f.conditions.isEmpty then t.count f.conditions else t.count []) = t.length := by
    split
    · rename_i h
      simp [List.isEmpty_iff.1 h, count]
    · simp [count]
  simp only [list, List.nil_append, hlength, hall]

/-- Base conditions leave of a table what they are met by. -/
theorem list_meeting (t : Table) (f : EventFilters) (base : Conditions) :
    (t.meeting base).list f = t.list f base := by
  simp only [list, matching, count, List.nil_append, meeting_append, meeting_nil]

theorem hasAny_eq (t : Table) : t.hasAny = !t.isEmpty := by
  simp [hasAny]

theorem hasAny_meeting (t : Table) (base : Conditions) :
    (t.meeting base).hasAny = t.hasAny base := by
  simp [hasAny]

end Table

end Footfall
