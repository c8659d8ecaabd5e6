import Footfall.Proofs.Connection
import Footfall.Proofs.SharedTable
import Mathlib

/-!
The numbers of events that reads give. The total of the statistics, that of a listing, that of a
summary, and the counts of all its pages are the number of rows in the range, and for each name that
of its rows. The counts of a time series are so too as soon as each of the rows falls into a bucket,
which those of the last half millisecond of the calendar do not.
-/

namespace Footfall

section

variable {α : Type} [DecidableEq α]

theorem distinct_eq_dedup (xs : List α) : distinct xs = xs.dedup := by
  induction xs with
  | nil => rfl
  | cons a xs ih =>
    by_cases h : a ∈ xs
    · rw [List.dedup_cons_of_mem h, ← ih, distinct, if_pos h]
    · rw [List.dedup_cons_of_notMem h, ← ih, distinct, if_neg h]

/-- The counts of the distinct values that pass a test are the count of all that pass it. -/
theorem sum_count_distinct [hb : BEq α] [LawfulBEq α] (p : α → Bool) (xs : List α) :
    (((distinct xs).filter p).map (xs.count ·)).sum = xs.countP p := by
  rw [distinct_eq_dedup, lawful_beq_subsingleton hb instBEqOfDecidableEq]
  exact List.sum_map_count_dedup_filter_eq_countP p xs

/-- A value is among the distinct ones once, or not at all. -/
theorem filter_distinct (a : α) (xs : List α) :
    (distinct xs).filter (· == a) = if a ∈ xs then [a] else [] := by
  rw [List.filter_beq, (nodup_distinct xs).count]
  by_cases h : a ∈ xs <;> simp [h]

end

/-- The answer of work that ends with one. -/
def Work.answer? {α : Type} : Work α → Option α
  | .done r _ => r.toOption
  | .unending => none

/-- Whether an embedded store has a bucket for an instant: it does not see it after the last day of
the calendar. -/
def Instant.IsBucketed (t : Instant) : Prop := t.storedDay * dayLength < limit

instance (t : Instant) : Decidable t.IsBucketed := inferInstanceAs (Decidable (_ < _))

theorem Instant.isBucketed_of_day_lt {t : Instant} (h : t.day < 3652058) : t.IsBucketed := by
  have : t.storedDay ≤ t.day + 1 := by
    unfold storedDay
    split <;> omega
  exact Nat.mul_lt_mul_of_pos_right (by omega) (by decide)

/-- Options that ask for the first page of a summary of all names of a range. -/
structure SummaryOptions.IsFirst (o : SummaryOptions) (r : Option DateRange) : Prop where
  range : o.range = r
  search : o.search = none
  offset : o.offset = 0
  limit_pos : 0 < o.limit
  limit_fits : fitsTable o.limit = true

/-- The filters that ask for a page of a range, if a name is given for the events of that name. -/
def EventFilters.over (r : Option DateRange) (name : Option String) (offset limit : Int) :
    EventFilters :=
  let r := r.getD {}
  { start := r.start, stop := r.stop, exact := r.exact, event := name, offset := offset,
    limit := limit }

namespace Table

variable {t : Table} {r : Option DateRange} {o : SummaryOptions}

/-- The rows in a range. -/
def within (t : Table) (r : Option DateRange) : Table :=
  t.filter fun e ↦ (r.getD {}).contains e.createdAt

/-- How many rows have a name. -/
def named (t : Table) (name : String) : Nat := t.countP (·.event == name)

theorem meeting_rangeConditions (t : Table) (r : Option DateRange) :
    t.meeting (rangeConditions r) = t.within r := by
  refine List.filter_congr fun e _ ↦ ?_
  obtain _ | ⟨start, stop, exact⟩ := r
  · rfl
  · cases start <;> cases stop <;>
      simp [rangeConditions, DateRange.conditions, DateRange.contains, DateRange.last]

theorem conditions_over (r : Option DateRange) (name : Option String) (offset limit : Int) :
    (EventFilters.over r name offset limit).conditions =
      rangeConditions r ++ textConditions name (fun e ↦ some e.event) := by
  cases r <;>
    simp [EventFilters.conditions, EventFilters.over, EventFilters.range, textConditions,
      rangeConditions, DateRange.conditions, DateRange.last]

theorem length_matching_over (t : Table) (r : Option DateRange) (offset limit : Int) :
    (t.matching (.over r none offset limit)).length = (t.within r).length := by
  simp [matching, conditions_over, textConditions, meeting_rangeConditions]

theorem length_matching_over_some (t : Table) (r : Option DateRange) {name : String}
    (hname : name ≠ "") (offset limit : Int) :
    (t.matching (.over r (some name) offset limit)).length = (t.within r).named name := by
  simp only [matching, List.nil_append, List.length_mergeSort, conditions_over, meeting_append,
    meeting_rangeConditions]
  simp [textConditions, hname, meeting, named, List.countP_eq_length_filter]

/-- The names of a summary in its order. -/
def ranked (t : Table) (o : SummaryOptions) : List SummaryRow :=
  (t.summaryRows (summaryConditions o)).mergeSort fun a b ↦ (compareRows o a b).isLE

theorem length_ranked (t : Table) (o : SummaryOptions) :
    (t.ranked o).length = (t.names (summaryConditions o)).length := by
  simp [ranked, summaryRows]

theorem summary_eq (t : Table) (o : SummaryOptions) :
    t.summary o = if fitsPage o.offset o.limit then
        .ok ⟨pageOf o.offset o.limit (t.ranked o), .build o.offset o.limit (t.ranked o).length,
          t.count (summaryConditions o), (t.ranked o).length⟩
      else .error .hugeForStore := by
  simp only [summary, List.nil_append, length_ranked]
  rfl

theorem meeting_of_search (t : Table) (h : o.search = none) :
    t.meeting (summaryConditions o) = t.within o.range := by
  simp [summaryConditions, h, meeting_rangeConditions]

/-- The names of the rows that meet the conditions, each with the number of its rows. -/
theorem perm_ranked (t : Table) (o : SummaryOptions) :
    ((t.ranked o).map fun row ↦ (row.event, row.count)).Perm
      ((t.names (summaryConditions o)).map fun name ↦
        (name, (t.meeting (summaryConditions o)).named name)) := by
  have hrows : (t.summaryRows (summaryConditions o)).map (fun row ↦ (row.event, row.count)) =
      (t.names (summaryConditions o)).map fun name ↦
        (name, (t.meeting (summaryConditions o)).named name) := by
    rw [summaryRows, List.map_map]
    apply List.map_congr_left
    intro name _
    simp [summaryRow, named, List.countP_eq_length_filter]
  rw [← hrows]
  exact (List.mergeSort_perm _ _).map _

theorem named_eq_count (t : Table) (name : String) :
    t.named name = (t.map (·.event)).count name := by
  simp only [named, List.count, List.countP_map]
  rfl

/-- The names of a summary count all rows that meet its conditions. -/
theorem sum_ranked (t : Table) (o : SummaryOptions) :
    ((t.ranked o).map (·.count)).sum = (t.meeting (summaryConditions o)).length := by
  have hsum := ((perm_ranked t o).map Prod.snd).sum_eq
  simp only [names, List.map_map, Function.comp_def, named_eq_count] at hsum
  rw [hsum]
  simpa using sum_count_distinct (fun _ ↦ true) ((t.meeting (summaryConditions o)).map (·.event))

/-- A name that has rows in the range has one place in a summary, with their number. -/
theorem filter_ranked (t : Table) (h : o.search = none) (name : String) :
    ((t.ranked o).filter (·.event == name)).map (·.count) =
      if (t.within o.range).named name = 0 then [] else [(t.within o.range).named name] := by
  have hperm := (((perm_ranked t o).filter fun p ↦ p.1 == name).map Prod.snd)
  simp only [names, meeting_of_search t h, List.filter_map, List.map_map, Function.comp_def,
    filter_distinct] at hperm
  have hmem : name ∈ (t.within o.range).map (·.event) ↔ (t.within o.range).named name ≠ 0 := by
    rw [named_eq_count, ← Nat.pos_iff_ne_zero, List.count_pos_iff]
  by_cases hn : (t.within o.range).named name = 0
  · rw [if_neg (fun hm ↦ hmem.1 hm hn)] at hperm
    simpa [hn] using hperm
  · rw [if_pos (hmem.2 hn)] at hperm
    simpa [hn] using hperm

theorem mapM_point {keys : List (Option String × Option String)}
    (h : ∀ k ∈ keys, k.1.isSome = true) (count : Option String × Option String → Nat) :
    keys.mapM (fun k ↦ point k.1 k.2 (count k)) =
      .ok (keys.map fun k ↦ ⟨k.1.getD "", k.2, count k⟩) := by
  induction keys with
  | nil => rfl
  | cons k keys ih =>
    obtain ⟨label, hlabel⟩ := Option.isSome_iff_exists.1 (h k (by simp))
    rw [List.mapM_cons, ih fun k hk ↦ h k (by simp [hk]), hlabel]
    simp [point, hlabel, bind, Except.bind, pure, Except.pure]

/-- A row without a label stands in the way of the whole series. -/
theorem mapM_point_error {keys : List (Option String × Option String)}
    (h : ∃ k ∈ keys, k.1 = none) (count : Option String × Option String → Nat) :
    keys.mapM (fun k ↦ point k.1 k.2 (count k)) =
      .error (.rejected [⟨[.key "date"], .textKind⟩]) := by
  induction keys with
  | nil => simp at h
  | cons k keys ih =>
    rw [List.mapM_cons]
    cases hlabel : k.1 with
    | none => rfl
    | some label =>
      have hrest : ∃ k ∈ keys, k.1 = none := by
        obtain ⟨k', hk', hnone⟩ := h
        rcases List.mem_cons.1 hk' with rfl | hk'
        · cases hlabel.symm.trans hnone
        · exact ⟨k', hk', hnone⟩
      rw [ih hrest]
      rfl

/-- The buckets of the rows in a range. -/
def keys (t : Table) (r : Option DateRange) (g : Granularity) (byEvent : Bool) :
    List (Option String × Option String) :=
  (t.within r).map (pointKey g byEvent)

theorem isSome_storedLabel (g : Granularity) (i : Instant) :
    (g.storedLabel i).isSome = true ↔ i.IsBucketed := by
  unfold Granularity.storedLabel Instant.IsBucketed
  split <;> simp_all

/-- The points of a series whose rows all have a bucket. -/
def points (t : Table) (r : Option DateRange) (g : Granularity) (byEvent : Bool) :
    List SeriesPoint :=
  ((distinct (t.keys r g byEvent)).map fun k ↦
    SeriesPoint.mk (k.1.getD "") k.2 ((t.keys r g byEvent).count k)).mergeSort
      fun a b ↦ (comparePoints a b).isLE

/-- A series has its points if all rows in the range have a bucket, and fails otherwise. -/
theorem series_eq (t : Table) (r : Option DateRange) (g : Granularity) (byEvent : Bool) :
    t.series r g (.bool byEvent) =
      if ∀ e ∈ t.within r, e.createdAt.IsBucketed then .ok ⟨t.points r g byEvent, g, byEvent⟩
      else .error (.rejected [⟨[.key "date"], .textKind⟩]) := by
  have hkeys : (t.meeting (rangeConditions r)).map (pointKey g byEvent) = t.keys r g byEvent := by
    rw [meeting_rangeConditions, keys]
  simp only [series, List.nil_append, Value.isTruthy, hkeys]
  split
  · rename_i h
    rw [mapM_point]
    · rfl
    · intro k hk
      obtain ⟨e, he, rfl⟩ := List.mem_map.1 (mem_distinct.1 hk)
      exact (isSome_storedLabel g _).2 (h e he)
  · rename_i h
    rw [mapM_point_error]
    · rfl
    · push Not at h
      obtain ⟨e, he, hno⟩ := h
      refine ⟨_, mem_distinct.2 (List.mem_map_of_mem he), ?_⟩
      rwa [← isSome_storedLabel g, Bool.not_eq_true, Option.isSome_eq_false_iff,
        Option.isNone_iff_eq_none] at hno

/-- The points that pass a test by their name count the rows that do. -/
theorem sum_points (t : Table) (r : Option DateRange) (g : Granularity) (byEvent : Bool)
    (p : Option String → Bool) :
    (((t.points r g byEvent).filter fun x ↦ p x.event).map (·.count)).sum =
      (t.within r).countP fun e ↦ p (if byEvent then some e.event else none) := by
  rw [points, (((List.mergeSort_perm _ _).filter _).map _).sum_eq, List.filter_map, List.map_map]
  refine (sum_count_distinct (fun k ↦ p k.2) (t.keys r g byEvent)).trans ?_
  rw [keys, List.countP_map]
  rfl

end Table

/-- The reads that count events. -/
structure Views where
  stats : Option DateRange → Work SiteStats
  list : EventFilters → Work EventPage
  summary : SummaryOptions → Work Summary
  series : Option DateRange → Granularity → Value → Work TimeSeries

def Connection.views (c : Connection) : Views where
  stats r := .done (c.stats r).1
  list f := .done (c.list f).1
  summary o := .done (c.summary o).1
  series r g byEvent := .done (c.series r g byEvent).1

def Backend.views (b : Backend) (s : Scope) : Views where
  stats r := (b.stats s r).1
  list f := (b.list s f).1
  summary o := (b.summary s o).1
  series r g byEvent := (b.series s r g byEvent).1

namespace Views

variable {v : Views} {t : Table} {r : Option DateRange}

/-- Views of rows: those of a store, and those that a table which teams share gives of the rows of a
site and a team. -/
inductive Of : Table → Views → Prop
  | store {c : Connection} (sound : c.IsSound) : Of c.content c.views
  | shared {site : SiteRef} {team : Int} (kind : StorageKind) (windowDays : Value) (s : Server)
      (t : Table) (seeks : Server.Seeks site team) :
      Of (t.rowsOf site team) ((Backend.sharing kind windowDays s t).views (.of site team))

/-- A summary is read page by page, until there are no more. -/
inductive Walk (v : Views) : SummaryOptions → List SummaryRow → Prop
  | last {o : SummaryOptions} {p : Summary} :
      (v.summary o).answer? = some p → p.pagination.hasMore = false → Walk v o p.rows
  | next {o : SummaryOptions} {p : Summary} {more : List SummaryRow} :
      (v.summary o).answer? = some p → p.pagination.hasMore = true →
      Walk v { o with offset := o.offset + o.limit } more → Walk v o (p.rows ++ more)

/-- The totals and the counts by name are the numbers of rows in a range. -/
structure Count (v : Views) (t : Table) (r : Option DateRange) : Prop where
  stats : ∃ a, (v.stats r).answer? = some a ∧ a.total = (t.within r).length
  list : ∀ offset limit, Table.fitsPage offset limit = true →
    ∃ p, (v.list (.over r none offset limit)).answer? = some p ∧
      p.pagination.total = (t.within r).length
  listNamed : ∀ name offset limit, name ≠ "" → Table.fitsPage offset limit = true →
    ∃ p, (v.list (.over r (some name) offset limit)).answer? = some p ∧
      p.pagination.total = (t.within r).named name
  summary : ∀ o, o.range = r → o.search = none → Table.fitsPage o.offset o.limit = true →
    ∃ a, (v.summary o).answer? = some a ∧ a.events = (t.within r).length
  exists_walk : ∀ o, o.IsFirst r → ∃ rows, v.Walk o rows
  walk : ∀ o, o.IsFirst r → ∀ rows, v.Walk o rows →
    (rows.map (·.count)).sum = (t.within r).length ∧
      ∀ name, (rows.filter (·.event == name)).map (·.count) =
        if (t.within r).named name = 0 then [] else [(t.within r).named name]

/-- The points of a series count the rows in a range, and those of a name its rows. -/
structure SeriesCount (v : Views) (t : Table) (r : Option DateRange) (g : Granularity) : Prop where
  total : ∀ byEvent, ∃ s, (v.series r g (.bool byEvent)).answer? = some s ∧
    (s.points.map (·.count)).sum = (t.within r).length
  named : ∀ name, ∃ s, (v.series r g (.bool true)).answer? = some s ∧
    ((s.points.filter (·.event == some name)).map (·.count)).sum = (t.within r).named name

/-- The answers are those that are computed from a table. -/
structure Shows (v : Views) (t : Table) : Prop where
  stats : ∀ r, (v.stats r).answer? = some (t.stats r)
  list : ∀ f, (v.list f).answer? = (t.list f).toOption
  summary : ∀ o, (v.summary o).answer? = (t.summary o).toOption
  series : ∀ r g byEvent, (v.series r g byEvent).answer? = (t.series r g byEvent).toOption

theorem toOption_mapError {ε ε' α : Type} (f : ε → ε') (x : Except ε α) :
    (x.mapError f).toOption = x.toOption := by
  cases x <;> rfl

theorem shows_of_isSound {c : Connection} (h : c.IsSound) : c.views.Shows c.content := by
  constructor
  case stats =>
    intro r
    simp only [Connection.views, Connection.reads_stats r c h]
    rfl
  case list =>
    intro f
    simp only [Connection.views, Connection.reads_list f c h]
    exact toOption_mapError ..
  case summary =>
    intro o
    simp only [Connection.views, Connection.reads_summary o c h]
    exact toOption_mapError ..
  case series =>
    intro r g byEvent
    simp only [Connection.views, Connection.reads_series r g byEvent c h]
    rfl

theorem shows_of_seeks {site : SiteRef} {team : Int} (kind : StorageKind) (windowDays : Value)
    (s : Server) (t : Table) (h : Server.Seeks site team) :
    ((Backend.sharing kind windowDays s t).views (.of site team)).Shows (t.rowsOf site team) := by
  have hread {α : Type} {f : Table → Conditions → Except Failure α}
      (hf : ∀ base, f (t.meeting base) [] = f t base) :
      Server.read { s with table := some t } (.of site team) f = f (t.rowsOf site team) [] := by
    rw [Server.read_of rfl _ _ hf, if_pos h]
  constructor
  case stats =>
    intro r
    exact congrArg Except.toOption (hread fun base ↦ congrArg _ (t.stats_meeting base r))
  case list =>
    intro f
    refine (congrArg Except.toOption (Server.list_of rfl site team f)).trans ?_
    rw [if_pos h]
    exact toOption_mapError ..
  case summary =>
    intro o
    refine (congrArg Except.toOption
      (hread fun base ↦ congrArg _ (t.summary_meeting base o))).trans ?_
    exact toOption_mapError ..
  case series =>
    intro r g byEvent
    exact congrArg Except.toOption (hread fun base ↦ t.series_meeting base r g byEvent)

theorem Of.shows (h : Of t v) : v.Shows t := by
  cases h with
  | store sound => exact shows_of_isSound sound
  | shared kind windowDays s t seeks => exact shows_of_seeks kind windowDays s t seeks

namespace Shows

variable {o : SummaryOptions} {rows : List SummaryRow}

theorem summary_eq (h : v.Shows t) (hfits : Table.fitsPage o.offset o.limit = true) :
    (v.summary o).answer? = some ⟨Table.pageOf o.offset o.limit (t.ranked o),
      .build o.offset o.limit (t.ranked o).length, t.count (Table.summaryConditions o),
      (t.ranked o).length⟩ := by
  rw [h.summary, Table.summary_eq, if_pos hfits]
  rfl

theorem fitsPage_of_summary (h : v.Shows t) {p : Summary} (hp : (v.summary o).answer? = some p) :
    Table.fitsPage o.offset o.limit = true := by
  by_contra hfits
  rw [h.summary, Table.summary_eq, if_neg hfits] at hp
  cases hp

theorem take_append_drop_ranked (t : Table) (h0 : 0 ≤ o.offset) (hlimit : 0 < o.limit) :
    Table.pageOf o.offset o.limit (t.ranked o) ++
        (t.ranked o).drop (o.offset + o.limit).toNat =
      (t.ranked o).drop o.offset.toNat := by
  rw [Table.pageOf, Table.limited, if_neg (by omega),
    show (o.offset + o.limit).toNat = o.offset.toNat + o.limit.toNat by omega, ← List.drop_drop,
    List.take_append_drop]

/-- The last page is the rest of the names. -/
theorem pageOf_last (t : Table) (h0 : 0 ≤ o.offset) (hlimit : 0 < o.limit)
    (hlast : ¬o.offset + o.limit < (t.ranked o).length) :
    Table.pageOf o.offset o.limit (t.ranked o) = (t.ranked o).drop o.offset.toNat := by
  have hdrop : (t.ranked o).drop (o.offset + o.limit).toNat = [] :=
    List.drop_eq_nil_of_le (by omega)
  have happend := take_append_drop_ranked t h0 hlimit
  rwa [hdrop, List.append_nil] at happend

/-- Reading on from a place in the order gives the names from there on. -/
theorem walk_eq (h : v.Shows t) (hw : v.Walk o rows) (h0 : 0 ≤ o.offset) (hlimit : 0 < o.limit) :
    rows = (t.ranked o).drop o.offset.toNat := by
  induction hw with
  | last hp hmore =>
    have hpage := h.summary_eq (h.fitsPage_of_summary hp)
    cases hp.symm.trans hpage
    exact pageOf_last t h0 hlimit (of_decide_eq_false hmore)
  | next hp hmore _ ih =>
    have hpage := h.summary_eq (h.fitsPage_of_summary hp)
    cases hp.symm.trans hpage
    rw [ih (by simpa using by omega) hlimit]
    exact take_append_drop_ranked t h0 hlimit

theorem exists_walk (h : v.Shows t) (hlen : (t.ranked o).length < 0x8000000000000000)
    (h0 : 0 ≤ o.offset) (hoffset : o.offset ≤ (t.ranked o).length) (hlimit : 0 < o.limit)
    (hfits : fitsTable o.limit = true) : ∃ rows, v.Walk o rows := by
  induction hn : (t.ranked o).length - o.offset.toNat using Nat.strongRecOn generalizing o with
  | _ n ih =>
    have hpage := h.summary_eq (o := o) (by
      have : fitsTable o.offset = true := decide_eq_true (by omega)
      simp [Table.fitsPage, this, hfits])
    by_cases hmore : o.offset + o.limit < (t.ranked o).length
    · have hrest : (t.ranked o).length - (o.offset + o.limit).toNat < n := by omega
      obtain ⟨more, hw⟩ := ih _ hrest (o := { o with offset := o.offset + o.limit }) hlen
        (show 0 ≤ o.offset + o.limit by omega) (Int.le_of_lt hmore) hlimit hfits rfl
      exact ⟨_, .next hpage (decide_eq_true hmore) hw⟩
    · exact ⟨_, .last hpage (decide_eq_false hmore)⟩

theorem list_eq (h : v.Shows t) {f : EventFilters}
    (hfits : Table.fitsPage f.offset f.limit = true) :
    ∃ p, (v.list f).answer? = some p ∧ p.pagination.total = (t.matching f).length := by
  rw [h.list, Table.list_eq, if_pos hfits]
  exact ⟨_, rfl, rfl⟩

/-- A summary has no more names than there are rows. -/
theorem length_ranked_le (t : Table) (o : SummaryOptions) : (t.ranked o).length ≤ t.length := by
  rw [Table.length_ranked, Table.names, distinct_eq_dedup]
  refine (List.dedup_sublist _).length_le.trans ?_
  rw [List.length_map]
  exact List.length_filter_le ..

theorem count (h : v.Shows t) (hlen : t.length < 0x8000000000000000) (r : Option DateRange) :
    v.Count t r := by
  constructor
  case stats =>
    refine ⟨_, h.stats r, ?_⟩
    simp [Table.stats, Table.count, Table.meeting_rangeConditions]
  case list =>
    intro offset limit hfits
    simpa only [Table.length_matching_over] using h.list_eq (f := .over r none offset limit) hfits
  case listNamed =>
    intro name offset limit hname hfits
    simpa only [Table.length_matching_over_some t r hname] using
      h.list_eq (f := .over r (some name) offset limit) hfits
  case summary =>
    rintro o rfl hsearch hfits
    refine ⟨_, h.summary_eq hfits, ?_⟩
    rw [Table.count, Table.meeting_of_search t hsearch]
  case exists_walk =>
    intro o ho
    refine h.exists_walk (Nat.lt_of_le_of_lt (length_ranked_le t o) hlen) ?_ ?_ ho.limit_pos
      ho.limit_fits <;> simp [ho.offset]
  case walk =>
    rintro o ⟨rfl, hsearch, hoffset, hlimit, -⟩ rows hw
    have hrows : rows = t.ranked o := by
      simpa [hoffset] using h.walk_eq hw (Int.le_of_eq hoffset.symm) hlimit
    rw [hrows, Table.sum_ranked, Table.meeting_of_search t hsearch]
    exact ⟨rfl, Table.filter_ranked t hsearch⟩

theorem seriesCount_iff (h : v.Shows t) (r : Option DateRange) (g : Granularity) :
    v.SeriesCount t r g ↔ ∀ e ∈ t.within r, e.createdAt.IsBucketed := by
  have hseries (byEvent : Bool) := (h.series r g (.bool byEvent)).trans
    (congrArg Except.toOption (Table.series_eq t r g byEvent))
  constructor
  · intro hcount
    by_contra hno
    obtain ⟨s, hs, -⟩ := hcount.total false
    rw [hseries, if_neg hno] at hs
    cases hs
  · intro hall
    simp only [if_pos hall] at hseries
    refine ⟨fun byEvent ↦ ⟨_, hseries byEvent, ?_⟩, fun name ↦ ⟨_, hseries true, ?_⟩⟩
    · simpa using Table.sum_points t r g byEvent fun _ ↦ true
    · simpa [Table.named] using Table.sum_points t r g true (· == some name)

end Shows

/-- All reads of a range count its rows, the series if and only if each of the rows falls into a
bucket, as all rows before the last day of the calendar do. -/
theorem count_and_seriesCount_iff (h : Of t v) (hlen : t.length < 0x8000000000000000)
    (r : Option DateRange) (g : Granularity) :
    v.Count t r ∧ (v.SeriesCount t r g ↔ ∀ e ∈ t.within r, e.createdAt.IsBucketed) ∧
      ∀ e ∈ t.within r, e.createdAt.day < 3652058 → e.createdAt.IsBucketed :=
  ⟨h.shows.count hlen r, h.shows.seriesCount_iff r g, fun _ _ ↦ Instant.isBucketed_of_day_lt⟩

/-- A store with events of two names. -/
def twoNames : Connection :=
  ⟨{ site := 1 }, some [Backend.viewRow 1 1 10, { Backend.viewRow 2 1 10 with event := "signup" },
    { Backend.viewRow 3 1 10 with createdAt := ⟨Instant.unixEpoch⟩ }]⟩

theorem count_and_seriesCount_iff_twoNames :
    Of twoNames.content twoNames.views ∧ twoNames.content.length < 0x8000000000000000 ∧
    twoNames.views.Count twoNames.content none ∧
    (twoNames.views.SeriesCount twoNames.content none .week ↔
      ∀ e ∈ twoNames.content.within none, e.createdAt.IsBucketed) ∧
    ∀ e ∈ twoNames.content.within none, e.createdAt.day < 3652058 → e.createdAt.IsBucketed := by
  have h : Of twoNames.content twoNames.views := .store fun _ ↦ rfl
  have hlen : twoNames.content.length < 0x8000000000000000 := by decide
  exact ⟨h, hlen, count_and_seriesCount_iff h hlen none .week⟩

/-- A store with an event of the last microsecond of the calendar. -/
def lastMoment : Connection :=
  ⟨{ site := 1 }, some [{ Backend.viewRow 1 1 10 with createdAt := ⟨Instant.limit - 1⟩ }]⟩

/-- The event is counted by the statistics, and there is no series of it. -/
theorem lastMoment_has_no_series :
    (∃ a, (lastMoment.views.stats none).answer? = some a ∧ a.total = 1) ∧
      ∀ g byEvent, (lastMoment.views.series none g (.bool byEvent)).answer? = none := by
  have h : Shows lastMoment.views lastMoment.content := (Of.store fun _ ↦ rfl).shows
  have hlate : ¬∀ e ∈ lastMoment.content.within none, e.createdAt.IsBucketed := by
    decide +kernel
  refine ⟨⟨_, h.stats none, rfl⟩, fun g byEvent ↦ ?_⟩
  rw [h.series, Table.series_eq, if_neg hlate]
  rfl

end Views

end Footfall
