import Footfall.Query.Scope
import Footfall.Store.Parameter
import Footfall.Store.Query

/-!
Storage of all teams in one table of a server. What keeps the teams apart is that each statement has
conditions on the team and the site.
-/

namespace Footfall

structure Server where
  dialect : Report.Dialect := .sqlite
  maxRows : Value := .int 500
  table : Option Table := some []
  deriving BEq, Repr, Inhabited

namespace Scope

def teamTest (s : Scope) : Except Unbindable (StoredEvent → Bool) :=
  (Parameter.ofValue s.team).map fun p e ↦ e.team.any (p.isWhole ·)

def siteTest (s : Scope) : Except Unbindable (StoredEvent → Bool) :=
  match s.site with
  | .text tag => .ok fun e ↦ e.tag == tag
  | v => (Parameter.ofValue v).map fun p e ↦ p.isWhole e.site

/-- The conditions that keep a statement to the team and the site. -/
def conditions (s : Scope) : Except Unbindable Conditions := do
  return [← s.teamTest, ← s.siteTest]

/-- The rows of a scope whose site and team are converted to numbers. Without a site all rows are
seen, and without a team those of all teams. -/
def view (s : Scope) : Except Fault (Table → Table) :=
  if s.site.isNull then .ok id
  else do
    let site ← s.site.toWhole
    let team ← if s.team.isNull then pure none else some <$> s.team.toWhole
    return fun t ↦ t.filter fun e ↦ team.all (e.team == some ·) && e.site == site

end Scope

namespace Server

variable {α : Type}

def source : String := "Relational store"

def outage : Failure := .outage (.store source)

def entry (r : EventRecord) : Except Failure Entry :=
  match r.site, r.team with
  | some site, some team => .ok ⟨r, site, some team⟩
  | _, _ => .error (.violation .noTenant)

def insertAll (s : Server) (now : Instant) (records : List EventRecord) :
    Except Failure (List StoredEvent) × Server :=
  if records.isEmpty then (.error (.violation .noEvents), s)
  else
    match records.mapM entry with
    | .error e => (.error e, s)
    | .ok entries =>
      match s.table with
      | none => (.error outage, s)
      | some t =>
        match t.addAll now entries with
        | .error f => (.error (.fault f), s)
        | .ok (t, rows) => (.ok rows, { s with table := some t })

/-- Computes an answer from the table, under the conditions of one site and team. -/
def read (s : Server) (scope : Scope) (f : Table → Conditions → Except Failure α) :
    Except Failure α :=
  match s.table, scope.conditions with
  | none, _ | _, .error .unsupported => .error outage
  | _, .error .huge => .error (.fault .hugeForStore)
  | some t, .ok base => f t base

/-- A page of the listing. When there is no table, or the scope cannot be sought in it, it is a page
that says so. -/
def list (s : Server) (scope : Scope) (f : EventFilters) : Except Failure EventPage :=
  match s.table, scope.conditions with
  | none, _ | _, .error .unsupported => .ok (.failed f)
  | _, .error .huge => .error (.fault .hugeForStore)
  | some t, .ok base => (t.list f base).mapError .fault

/-- Runs a query over the rows of one site and team. -/
def run (s : Server) (scope : Scope) (q : TableQuery) (limit : Value) :
    Except Failure (List Fields) := do
  let bound ← (rowBound limit s.maxRows).mapError .fault
  q.run bound source scope.view s.table

end Server

end Footfall
