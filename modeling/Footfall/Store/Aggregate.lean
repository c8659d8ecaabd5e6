import Footfall.Store.Listing
import Footfall.Time.Bucket

/-!
Aggregates over the rows of a table: the most frequent values, the event names with their counts and
times, the counts of each bucket of time, and the sessions of a rolling window.
-/

namespace Footfall

section

variable {α : Type} [DecidableEq α]

def distinct : List α → List α
  | [] => []
  | a :: rest => if a ∈ rest then distinct rest else a :: distinct rest

@[simp] theorem mem_distinct {a : α} {xs : List α} : a ∈ distinct xs ↔ a ∈ xs := by
  induction xs with
  | nil => simp [distinct]
  | cons b rest ih =>
    by_cases h : b ∈ rest
    · simp only [distinct, h, if_true, ih, List.mem_cons]
      exact ⟨.inr, fun h' ↦ h'.elim (fun e ↦ e ▸ h) id⟩
    · simp [distinct, h, ih]

theorem nodup_distinct (xs : List α) : (distinct xs).Nodup := by
  induction xs with
  | nil => simp [distinct]
  | cons b rest ih =>
    by_cases h : b ∈ rest
    · simpa [distinct, h] using ih
    · simp [distinct, h, ih]

end

instance : Min Instant := ⟨fun a b ↦ if a ≤ b then a else b⟩
instance : Max Instant := ⟨fun a b ↦ if a ≤ b then b else a⟩
instance : Ord Instant := ⟨fun a b ↦ compare a.micros b.micros⟩

namespace Table

def topSize : Nat := 10

def compareValues : Option String → Option String → Ordering
  | some a, some b => compare a b
  | some _, none => .lt
  | none, some _ => .gt
  | none, none => .eq

def compareCounts (a b : ValueCount) : Ordering :=
  (compare b.count a.count).then (compareValues a.value b.value)

/-- The most frequent values of a field, among the rows that meet all conditions. -/
def topValues (t : Table) (field : StoredEvent → Option String) (cs : Conditions := []) :
    List ValueCount :=
  let values := (t.meeting cs).map field
  let counts := (distinct values).map fun v ↦ ValueCount.mk v (values.count v)
  (counts.mergeSort fun a b ↦ (compareCounts a b).isLE).take topSize

/-- The conditions of a range, if there is one. -/
def rangeConditions (r : Option DateRange) : Conditions := (r.map DateRange.conditions).getD []

def stats (t : Table) (r : Option DateRange) (base : Conditions := []) : SiteStats :=
  let cs := base ++ rangeConditions r
  { total := t.count cs
    events := t.topValues (fun e ↦ some e.event) cs
    countries := t.topValues (·.context.country) cs
    devices := t.topValues (·.context.deviceType) cs
    referers := t.topValues (·.context.referer) cs }

def isWithin (needle : List Char) : List Char → Bool
  | [] => needle.isEmpty
  | c :: rest => needle.isPrefixOf (c :: rest) || isWithin needle rest

/-- What a pattern is compared with: the characters of a text up to its first null character, letters
of ASCII in lower case. -/
def folded (s : String) : List Char := (s.toList.takeWhile (· != '\x00')).map Char.toLower

/-- Whether an event name contains a text. A text with a null character ends its pattern there, so
that it is found at the end of the name only. -/
def isFound (search : String) (e : StoredEvent) : Bool :=
  if search.toList.contains '\x00' then (folded search).isSuffixOf (folded e.event)
  else isWithin (folded search) (folded e.event)

/-- The conditions of a summary: those of its range, and that of its search if that is not empty. -/
def summaryConditions (o : SummaryOptions) : Conditions :=
  rangeConditions o.range ++
    match o.search with
    | none => []
    | some s => if s.isEmpty then [] else [isFound s]

def summaryRow (name : String) (rows : Table) : SummaryRow :=
  let times := rows.map (·.createdAt)
  ⟨name, rows.length, times.min?.getD default, times.max?.getD default⟩

def compareKeys (s : SummarySort) (a b : SummaryRow) : Ordering :=
  match s with
  | .count => compare a.count b.count
  | .firstSeen => compare a.firstSeen b.firstSeen
  | .lastSeen => compare a.lastSeen b.lastSeen

/-- The order among rows with the same key: the later seen first, or the more frequent when times
are the key. -/
def compareTies (s : SummarySort) (a b : SummaryRow) : Ordering :=
  match s with
  | .count => compare b.lastSeen a.lastSeen
  | .firstSeen | .lastSeen => compare b.count a.count

def compareRows (o : SummaryOptions) (a b : SummaryRow) : Ordering :=
  let key := match o.direction with
    | .ascending => compareKeys o.sort a b
    | .descending => compareKeys o.sort b a
  (key.then (compareTies o.sort a b)).then (compare a.event b.event)

def names (t : Table) (cs : Conditions := []) : List String :=
  distinct ((t.meeting cs).map (·.event))

def summaryRows (t : Table) (cs : Conditions := []) : List SummaryRow :=
  (t.names cs).map fun n ↦ summaryRow n ((t.meeting cs).filter fun e ↦ e.event == n)

/-- A page of the names of the rows that meet the base conditions and those of the summary. The
events and their names are counted by themselves. -/
def summary (t : Table) (o : SummaryOptions) (base : Conditions := []) : Except Fault Summary :=
  if fitsPage o.offset o.limit then
    let cs := base ++ summaryConditions o
    let rows := (t.summaryRows cs).mergeSort fun a b ↦ (compareRows o a b).isLE
    let names := (t.names cs).length
    .ok ⟨pageOf o.offset o.limit rows, .build o.offset o.limit names, t.count cs, names⟩
  else .error .hugeForStore

/-- The order of points: by label, then by name. -/
def comparePoints (a b : SeriesPoint) : Ordering :=
  (compare a.label b.label).then (compareValues a.event b.event)

/-- The label and name of the point that an event counts for. -/
def pointKey (g : Granularity) (byEvent : Bool) (e : StoredEvent) : Option String × Option String :=
  (g.storedLabel e.createdAt, if byEvent then some e.event else none)

def point (label event : Option String) (count : Nat) : Except Failure SeriesPoint :=
  match label with
  | some l => .ok ⟨l, event, count⟩
  | none => .error (.rejected [⟨[.key "date"], .textKind⟩])

/-- The counts of each bucket. Whether they are divided by name is decided by whether the value
counts as true. -/
def series (t : Table) (r : Option DateRange) (g : Granularity) (byEvent : Value)
    (base : Conditions := []) : Except Failure TimeSeries := do
  let keys := (t.meeting (base ++ rangeConditions r)).map (pointKey g byEvent.isTruthy)
  let points ← (distinct keys).mapM fun k ↦ point k.1 k.2 (keys.count k)
  TimeSeries.of (points.mergeSort fun a b ↦ (comparePoints a b).isLE) g byEvent

/-- The rows from one instant on, up to another if there is one. -/
def between (t : Table) (start : Instant) (stop : Option Instant) : Table :=
  t.filter fun e ↦ decide (start ≤ e.createdAt) && stop.all fun b ↦ decide (e.createdAt ≤ b)

/-- The session of an event, if it has one that is not empty. -/
def session (e : StoredEvent) : Option String := e.context.rid.filter (!·.isEmpty)

def visitors (t : Table) (start : Instant) : Nat :=
  (distinct ((t.between start none).filterMap session)).length

section

variable (t : Table) (base : Conditions)

theorem stats_meeting (r : Option DateRange) : (t.meeting base).stats r = t.stats r base := by
  simp only [stats, topValues, count, List.nil_append, meeting_append]

theorem summary_meeting (o : SummaryOptions) : (t.meeting base).summary o = t.summary o base := by
  simp only [summary, summaryRows, names, count, List.nil_append, meeting_append]

theorem series_meeting (r : Option DateRange) (g : Granularity) (byEvent : Value) :
    (t.meeting base).series r g byEvent = t.series r g byEvent base := by
  simp only [series, List.nil_append, meeting_append]

end

end Table

end Footfall
