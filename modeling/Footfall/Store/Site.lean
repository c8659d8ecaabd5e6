import Footfall.Settings
import Footfall.Store.Parameter
import Footfall.Store.Query
import Footfall.Time.Window

/-!
The store of one site: a database of its own, whose table is made when the store is first used. The
store becomes active with its first write, or when rows are found in it, and then stays active. It
belongs to the team of its first known event.
-/

namespace Footfall

structure SiteStore where
  site : Int
  tag : Option String := none
  team : Option Int := none
  maxRows : Value := .int Settings.maxQueryRows
  active : Bool := false
  schemaReady : Bool := false
  identityLoaded : Bool := false
  deriving BEq, Repr

namespace SiteStore

def source (s : SiteStore) : String := s!"Site store {s.site}"

def stateName (s : SiteStore) : String := if s.active then "active" else "uninitialized"

/-- A record of another site or of another team than the store's is refused. -/
def checkRecord (s : SiteStore) (r : EventRecord) : Except Failure Unit :=
  match r.site.filter (· != s.site) with
  | some site => .error (.violation (.foreignSite site s.site))
  | none =>
    match r.team, s.team with
    | some t, some u =>
      if t = u then .ok () else .error (.violation (.foreignTeam t s.site))
    | _, _ => .ok ()

def entry (s : SiteStore) (r : EventRecord) : Entry := ⟨r, s.site, r.team.or s.team⟩

/-- The store with what the oldest row says of it; what is known already is kept. -/
def identified (s : SiteStore) (oldest : StoredEvent) : SiteStore :=
  { s with tag := s.tag.or (some oldest.tag), team := s.team.or oldest.team,
           identityLoaded := true, active := true }

end SiteStore

/-- A store with the table of its database, if the database has one. -/
structure Connection where
  store : SiteStore
  table : Option Table := none
  deriving BEq, Repr

namespace Connection

variable {α : Type}

/-- The store after its table has been made, which happens once. A table that is lost afterwards is
not made again. -/
def prepared (c : Connection) : Connection :=
  if c.store.schemaReady then c
  else ⟨{ c.store with schemaReady := true }, some (c.table.getD [])⟩

def outage (c : Connection) : Failure := .outage (.store c.store.source)

def rows (c : Connection) : Except Failure Table :=
  match c.table with
  | some t => .ok t
  | none => .error c.outage

def read (c : Connection) (f : Table → Except Failure α) : Except Failure α × Connection :=
  let c := c.prepared
  (c.rows >>= f, c)

/-- Finds out whose store it is, unless that is known or the store is empty. -/
def loadIdentity (c : Connection) : Except Failure Unit × Connection :=
  if c.store.identityLoaded then (.ok (), c)
  else
    let c := c.prepared
    match c.table with
    | none => (.error c.outage, c)
    | some [] => (.ok (), c)
    | some (oldest :: _) => (.ok (), { c with store := c.store.identified oldest })

def write (c : Connection) (now : Instant) (records : List EventRecord) :
    Except Failure (List StoredEvent) × Connection :=
  match c.table with
  | none => (.error c.outage, c)
  | some t =>
    match t.addAll now (records.map c.store.entry) with
    | .error f => (.error (.fault f), c)
    | .ok (t, rows) => (.ok rows, ⟨{ c.store with active := true }, some t⟩)

def insertAll (c : Connection) (now : Instant) (records : List EventRecord) :
    Except Failure (List StoredEvent) × Connection :=
  if records.isEmpty then (.error (.violation .noEvents), c)
  else
    match records.forM c.store.checkRecord with
    | .error e => (.error e, c)
    | .ok () => c.prepared.write now records

/-- The test whether a row has an event name, if one is given. -/
def eventTest (event : Value) : Except Unbindable (StoredEvent → Bool) :=
  if event.isTruthy then (Parameter.ofValue event).map fun p e ↦ p.isText e.event
  else .ok fun _ ↦ true

/-- Takes the rows that pass a test out of the table. -/
def remove (c : Connection) (t : Table) (isDoomed : StoredEvent → Bool) :
    Except Failure Nat × Connection :=
  (.ok (t.countP isDoomed), { c with table := some (t.filter (!isDoomed ·)) })

/-- Deletes the events up to an instant, those of one name, or those that are both. -/
def delete (c : Connection) (olderThan event : Value) : Except Failure Nat × Connection :=
  if olderThan.isNull && !event.isTruthy then (.error (.violation .nothingToDelete), c)
  else
    match olderThan.toInstantOrNone with
    | .error f => (.error (.fault f), c)
    | .ok olderThan =>
      let c := c.prepared
      match c.table, eventTest event with
      | none, _ | _, .error .unsupported => (.error c.outage, c)
      | _, .error .huge => (.error (.fault .hugeForStore), c)
      | some t, .ok hasName =>
        c.remove t fun e ↦ olderThan.all (fun b ↦ decide (e.createdAt ≤ b)) && hasName e

/-- A page of the listing. Without a table it is a page that says so. -/
def list (c : Connection) (f : EventFilters) : Except Failure EventPage × Connection :=
  let c := c.prepared
  match c.table with
  | none => (.ok (.failed f), c)
  | some t => ((t.list f).mapError .fault, c)

def hasEvents (c : Connection) : Except Failure Bool × Connection :=
  c.read fun t ↦ .ok t.hasAny

/-- How many events there are from one time on, up to another if it is given. -/
def countSince (c : Connection) (start stop : Value) : Except Failure Nat × Connection :=
  match start.toInstant, stop.toInstantOrNone with
  | .ok a, .ok b => c.read fun t ↦ .ok (t.between a b).length
  | .error f, _ => (.error (.fault f), c)
  | _, .error f => (.error (.fault f), c)

def visitorWindow : Int := 300

/-- The start of a window of at least one second that ends at an instant. -/
def windowStart (now : Instant) (window : Value) : Except Fault Instant := do
  let window := if ← window.above (.int 1) then window else .int 1
  now.earlier (← spanOfSeconds window)

/-- How many visitors were present in a window of at least one second. -/
def visitors (c : Connection) (now : Instant) (window : Value) : Except Failure Nat × Connection :=
  match windowStart now window with
  | .error f => (.error (.fault f), c)
  | .ok start => c.read fun t ↦ .ok (t.visitors start)

def stats (c : Connection) (r : Option DateRange) : Except Failure SiteStats × Connection :=
  c.read fun t ↦ .ok (t.stats r)

def summary (c : Connection) (o : SummaryOptions) : Except Failure Summary × Connection :=
  c.read fun t ↦ (t.summary o).mapError .fault

def series (c : Connection) (r : Option DateRange) (g : Granularity) (byEvent : Value) :
    Except Failure TimeSeries × Connection :=
  c.read fun t ↦ t.series r g byEvent

def run (c : Connection) (q : TableQuery) (limit : Value) :
    Except Failure (List Fields) × Connection :=
  match rowBound limit c.store.maxRows with
  | .error f => (.error (.fault f), c)
  | .ok bound =>
    let c := c.prepared
    (q.run bound c.store.source (.ok (·.ofSite c.store.site)) c.table, c)

def withoutTable (c : Connection) : Connection := { c with table := none }

/-- Stores an entry as others would who share the database: without the store's checks, and without
its knowing. -/
def writeForeign (c : Connection) (now : Instant) (e : Entry) :
    Except Failure StoredEvent × Connection :=
  match (c.table.getD []).add now e with
  | .error f => (.error (.fault f), c)
  | .ok (t, row) => (.ok row, { c with table := some t })

def schema (c : Connection) : Except Failure Value × Connection :=
  let c := c.prepared
  match c.table with
  | none => (.error (.fault .noTable), c)
  | some _ => (.ok (.list (Column.all.map Column.describe)), c)

def health (c : Connection) (now : Instant) : Except Failure Value × Connection :=
  c.read fun t ↦ .ok (.object
    [("status", .text "healthy"), ("site_id", .int c.store.site),
     ("state", .text c.store.stateName), ("total_events", .int t.length),
     ("timestamp", .text ((Timestamp.ofInstant now).isoText "T"))])

end Connection

end Footfall
