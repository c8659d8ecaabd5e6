import Footfall.Proofs.Calendar
import Footfall.Proofs.Counting
import Footfall.Proofs.Quoting

/-!
The filters of widgets and those of listings. Both select the same events over whole days, but for
two cases: a listing leaves out what happened after the last full millisecond of its last day, and
takes a blank text for no filter, which a widget compares with. Where neither arises, the counts of a
widget add up to the total of the listing.
-/

namespace Footfall

/-- Texts that events are looked for by. -/
structure Facets where
  event : Option String := none
  country : Option String := none
  device : Option String := none
  referer : Option String := none

namespace Facets

/-- The texts, each with the field that has to have it. -/
def texts (x : Facets) : List (Option String × (StoredEvent → Option String)) :=
  [(x.device, (·.context.deviceType)), (x.country, (·.context.country)),
    (x.referer, (·.context.referer)), (x.event, fun e ↦ some e.event)]

/-- Whether an event has each of the texts that are of a kind. -/
def meets (x : Facets) (kind : String → Bool) (e : StoredEvent) : Bool :=
  x.texts.all fun p ↦ p.1.all fun s ↦ !kind s || p.2 e == some s

/-- A text that is something else than blanks. -/
def isFilled (s : String) : Bool := !Text.isBlankText s

/-- A text of blanks that is not empty. -/
def isBlanks (s : String) : Bool := !s.isEmpty && Text.isBlankText s

def widgetFilters (x : Facets) (first last : Date) : WidgetFilters :=
  { start := some first.text, stop := some last.text, device := x.device, country := x.country,
    source := x.referer, event := x.event }

/-- The filters of a listing as they are asked for. -/
def request (x : Facets) (first last : Date) : Value :=
  .object [("start_date", .text first.text), ("end_date", .text last.text),
    ("event_type", .ofText x.event), ("country", .ofText x.country),
    ("device_type", .ofText x.device), ("referer", .ofText x.referer)]

/-- The filters of a listing as they are taken. -/
def listFilters (x : Facets) (first last : Date) : EventFilters :=
  { start := some (.ofDate first), stop := some (.ofDate last), event := x.event.filter isFilled,
    country := x.country.filter isFilled, device := x.device.filter isFilled,
    referer := x.referer.filter isFilled }

variable {x : Facets} {first last : Date}

theorem optional_text {fields : Fields} {name : String} {v : Option String}
    (h : Value.lookup fields name = some (.ofText v)) :
    Field.optional fields name none Field.filterText = .accepted (v.filter isFilled) := by
  rw [Field.optional, h]
  cases v with
  | none => rfl
  | some s =>
    cases hs : Text.isBlankText s <;>
      simp [Value.ofText, Value.ofOption, Field.filterText, Option.filter, isFilled, hs,
        Reading.under]

theorem optional_date {fields : Fields} {name : String} {d : Date} (hd : d.IsReal)
    (h : Value.lookup fields name = some (.text d.text)) :
    Field.optional fields name none (Field.nullable Field.instantOrDate) =
      .accepted (some (.ofDate d)) := by
  rw [Field.optional, h]
  simp [Field.nullable, Field.instantOrDate, Date.strip_text hd, Date.readDate?_text hd,
    Reading.map, Reading.under]

/-- The request of a listing is taken, without the texts that are blank. -/
theorem read_request (x : Facets) (hfirst : first.IsReal) (hlast : last.IsReal) :
    EventFilters.read (x.request first last) = .accepted (x.listFilters first last) := by
  simp only [EventFilters.read, request, Field.record, Reading.bind]
  rw [optional_date hfirst rfl, optional_date hlast rfl, optional_text (v := x.event) rfl,
    optional_text (v := x.country) rfl, optional_text (v := x.device) rfl,
    optional_text (v := x.referer) rfl]
  rfl

theorem isEmpty_eq_false_of_isFilled {s : String} (h : isFilled s = true) : s.isEmpty = false := by
  cases hs : s.isEmpty with
  | false => rfl
  | true =>
    rw [String.isEmpty_iff.1 hs] at h
    cases h

/-- A text that is not empty is filled, or it is blanks. -/
theorem not_isEmpty_eq (s : String) : (!s.isEmpty) = (isFilled s || isBlanks s) := by
  cases hs : isFilled s with
  | true => simp [isEmpty_eq_false_of_isFilled hs]
  | false => simp_all [isFilled, isBlanks]

/-- An event has the texts of two kinds if it has those of each. -/
theorem meets_or (x : Facets) (p q : String → Bool) (e : StoredEvent) :
    x.meets (fun s ↦ p s || q s) e = (x.meets p e && x.meets q e) := by
  rw [Bool.eq_iff_iff]
  simp only [meets, List.all_eq_true, Option.all_eq_true, Bool.and_eq_true, Bool.or_eq_true,
    Bool.not_eq_true', Bool.or_eq_false_iff]
  constructor
  · exact fun h ↦ ⟨fun y hy s hs ↦ (h y hy s hs).imp And.left id,
      fun y hy s hs ↦ (h y hy s hs).imp And.right id⟩
  · rintro ⟨hp, hq⟩ y hy s hs
    rcases hp y hy s hs with hp | he
    · exact (hq y hy s hs).imp (⟨hp, ·⟩) id
    · exact .inr he

/-- What a text filter of a listing makes of a text. -/
theorem all_textConditions (v : Option String) (field : StoredEvent → Option String)
    (e : StoredEvent) :
    (Footfall.textConditions (v.filter isFilled) field).all (· e) =
      v.all fun s ↦ !isFilled s || field e == some s := by
  cases v with
  | none => rfl
  | some s =>
    cases hs : isFilled s with
    | false => simp [Option.filter, hs, Footfall.textConditions]
    | true =>
      simp [Option.filter, hs, Footfall.textConditions, isEmpty_eq_false_of_isFilled hs]

/-- A listing takes the events of its days up to the last full millisecond. -/
theorem accepts_listFilters (x : Facets) (first last : Date) (e : StoredEvent) :
    (x.listFilters first last).accepts e =
      (decide (Instant.ofDate first ≤ e.createdAt ∧
        e.createdAt ≤ (Instant.ofDate last).endOfDay) && x.meets isFilled e) := by
  simp only [EventFilters.accepts, EventFilters.conditions, List.all_append]
  simp only [listFilters, all_textConditions, EventFilters.range, DateRange.conditions,
    DateRange.last, Instant.resolveEnd, meets, texts, List.all_cons, List.all_nil, Option.map_some,
    Option.toList_some, List.cons_append, List.nil_append, Bool.and_true]
  rw [Bool.eq_iff_iff]
  simp only [Bool.and_eq_true, decide_eq_true_eq, Bool.false_eq_true, if_false]
  tauto

end Facets

namespace Report

theorem fieldText_eq {name : String} {c : Column} (h : Column.ofName? name = some c)
    (e : StoredEvent) : fieldText name e = e.textOf c := by
  rw [fieldText, cellOfField, h]
  rfl

/-- Texts of filters that are not empty have to be those of their columns. -/
theorem all_textConditions (f : WidgetFilters) (e : StoredEvent) :
    (textConditions f).all (·.holds e) =
      (textFilters f).all fun p ↦ p.2.all fun s ↦ s.isEmpty || fieldText p.1 e == some s := by
  rw [textConditions, List.all_map, activeFilters]
  induction textFilters f with
  | nil => rfl
  | cons p ps ih =>
    rw [List.all_cons, ← ih, List.filterMap_cons]
    obtain ⟨column, _ | s⟩ := p
    · simp
    · cases hs : s.isEmpty <;> simp [hs, Condition.holds]

end Report

namespace Facets

variable {x : Facets} {first last : Date}

theorem asText_ofText (v : Option String) : (Cell.ofText v).asText = v := by
  cases v <;> rfl

/-- The conditions that the filters of a widget come to. -/
def widgetConditions (x : Facets) (first last : Date) : List Report.Condition :=
  [.since first, .before (.ofNumber (last.number + 1))] ++
    Report.textConditions (x.widgetFilters first last)

theorem filterConditions_widgetFilters (x : Facets) (hfirst : first.IsReal) (hlast : last.IsReal)
    (hend : last ≠ Report.lastDate) :
    Report.filterConditions (some (x.widgetFilters first last)) =
      .ok (x.widgetConditions first last) := by
  have hdate {d : Date} (hd : d.IsReal) : Report.dateOf? (some d.text) = some d := by
    simp [Report.dateOf?, Date.readDate?_text hd]
  simp [Report.filterConditions, Report.dayConditions, widgetConditions, widgetFilters,
    hdate hfirst, hdate hlast, Report.nextDay, hend, bind, Except.bind, pure, Except.pure]

theorem all_textConditions_widgetFilters (x : Facets) (first last : Date) (e : StoredEvent) :
    (Report.textConditions (x.widgetFilters first last)).all (·.holds e) =
      x.meets (fun s ↦ !s.isEmpty) e := by
  have hdevice : Report.fieldText "device_type" e = e.context.deviceType :=
    (Report.fieldText_eq (Column.ofName?_name .deviceType) e).trans (asText_ofText _)
  have hcountry : Report.fieldText "country" e = e.context.country :=
    (Report.fieldText_eq (Column.ofName?_name .country) e).trans (asText_ofText _)
  have hreferer : Report.fieldText "referer" e = e.context.referer :=
    (Report.fieldText_eq (Column.ofName?_name .referer) e).trans (asText_ofText _)
  have hevent : Report.fieldText "event" e = some e.event :=
    Report.fieldText_eq (Column.ofName?_name .event) e
  rw [Report.all_textConditions]
  simp [Report.textFilters, widgetFilters, meets, texts, hdevice, hcountry, hreferer, hevent]

/-- A widget takes the events of its days up to the midnight that follows. -/
theorem all_widgetConditions (x : Facets) (first last : Date) (e : StoredEvent) :
    (x.widgetConditions first last).all (·.holds e) =
      (decide (Instant.ofDate first ≤ e.createdAt ∧ e.createdAt.day ≤ last.number) &&
        x.meets (fun s ↦ !s.isEmpty) e) := by
  have hbefore : e.createdAt < Instant.ofDate (.ofNumber (last.number + 1)) ↔
      e.createdAt.day ≤ last.number := by
    rw [Instant.lt_ofDate_iff_day, Date.number_ofNumber, Nat.lt_succ_iff]
  rw [widgetConditions, List.all_append, all_textConditions_widgetFilters]
  simp only [List.all_cons, List.all_nil, Report.Condition.holds, Bool.and_true, hbefore,
    Bool.decide_and]

/-- Whether a listing of days and a widget of them take an event or both leave it out. They do so
unless the event is of those days and has the filled texts, and is too late for the listing or lacks
a text of blanks, but not both. -/
theorem all_widgetConditions_eq_accepts_iff (x : Facets) (first last : Date) (e : StoredEvent) :
    (x.widgetConditions first last).all (·.holds e) = (x.listFilters first last).accepts e ↔
      (Instant.ofDate first ≤ e.createdAt → e.createdAt.day ≤ last.number →
        x.meets isFilled e = true →
        (x.meets isBlanks e = true ↔ e.createdAt ≤ (Instant.ofDate last).endOfDay)) := by
  have hday : e.createdAt ≤ (Instant.ofDate last).endOfDay → e.createdAt.day ≤ last.number := by
    intro hle
    have := Nat.div_le_div_right (c := Instant.dayLength) hle
    exact this.trans_eq ((Instant.day_endOfDay _).trans (Instant.day_ofDate last))
  rw [all_widgetConditions, accepts_listFilters, Bool.eq_iff_iff]
  simp only [not_isEmpty_eq, meets_or, Bool.and_eq_true, decide_eq_true_eq]
  tauto

end Facets

namespace Report

/-- The number under a name in a row of an answer; zero if there is none. -/
def numberIn (name : String) (row : Fields) : Int :=
  match Value.lookup row name with
  | some (.int n) => n
  | _ => 0

theorem metricName_not_mem (g : Grouping) : g.metricName ∉ g.labelNames := by
  cases g <;> simp [Grouping.metricName, Grouping.labelNames]

theorem numberIn_toFields (g : Grouping) (labels : List (Option String)) (n : Nat) :
    numberIn g.metricName (Group.toFields g ⟨labels, .count n⟩) = n := by
  have hlabels : (g.labelNames.zip (labels.map Value.ofText)).find? (·.1 == g.metricName) = none :=
    List.find?_eq_none.2 fun p hp h ↦
      metricName_not_mem g (eq_of_beq h ▸ (List.of_mem_zip hp).1)
  simp [numberIn, Value.lookup, Group.toFields, List.find?_append, hlabels, Measure.toValue]

namespace ChartQuery

variable {q : ChartQuery} {t : Table}

theorem length_select (q : ChartQuery) (t : Table) :
    (q.select t).length = t.countP fun e ↦ q.conditions.all (·.holds e) := by
  rw [List.countP_eq_length_filter]
  unfold select
  split
  · exact List.length_mergeSort ..
  · rfl

/-- Each selected row counts in one group. -/
theorem sum_groups (hq : q.metric = .events) (t : Table) :
    ((q.groups t).map fun g ↦ numberIn q.grouping.metricName (g.toFields q.grouping)).sum =
      (t.countP fun e ↦ q.conditions.all (·.holds e) : Int) := by
  have hcount (ls : List (Option String)) :
      ((q.select t).filter fun e ↦ q.grouping.labels e == ls).length =
        ((q.select t).map (q.grouping.labels ·)).count ls := by
    rw [List.count, List.countP_map, List.countP_eq_length_filter]
    rfl
  have hsum := sum_count_distinct (fun _ ↦ true) ((q.select t).map (q.grouping.labels ·))
  simp only [List.filter_true, List.countP_true, List.length_map, length_select] at hsum
  simp only [groups, hq, Metric.measure, List.map_map, Function.comp_def, numberIn_toFields, hcount]
  rw [← hsum, Nat.cast_list_sum, List.map_map]
  rfl

theorem limited_eq_self {α : Type} {n : Int} {xs : List α}
    (h : (Table.limited n xs).length = xs.length) : Table.limited n xs = xs := by
  unfold Table.limited at h ⊢
  split
  · rfl
  · rename_i hn
    rw [if_neg hn, List.length_take] at h
    exact List.take_of_length_le (by omega)

/-- An answer from which no group is cut off counts all selected rows. -/
theorem sum_rows (hq : q.metric = .events) {t : Table} {maxRows : Int}
    (hall : (q.rows t maxRows).length = (q.groups t).length) :
    ((q.rows t maxRows).map (numberIn q.grouping.metricName)).sum =
      (t.countP fun e ↦ q.conditions.all (·.holds e) : Int) := by
  rw [rows, List.length_map] at hall
  have hanswer : q.answer t maxRows =
      (q.groups t).mergeSort fun a b ↦ (compareGroups q.grouping a b).isLE :=
    limited_eq_self (hall.trans (List.length_mergeSort ..).symm)
  rw [rows, hanswer, List.map_map, ← sum_groups hq]
  exact ((List.mergeSort_perm ..).map _).sum_eq

/-- The rows of a query that runs. -/
theorem exists_rows_of_run {maxRows : Value} {source : String}
    {view : Except Fault (Table → Table)} {see : Table → Table} (hview : view = .ok see) {t : Table}
    {result : List Fields}
    (h : (TableQuery.chart q).run maxRows source view (some t) = .ok result) :
    ∃ m, result = q.rows (see t) m := by
  simp only [TableQuery.run, hview, Except.mapError, bind, Except.bind, Option.bind_some,
    TableQuery.rows?] at h
  split at h
  · cases h
  · split at h
    · cases h
    · split at h
      · rename_i hrows
        cases h
        split at hrows
        · cases hrows
          exact ⟨_, rfl⟩
        · cases hrows
      · cases h

end ChartQuery

/-- The counts of an answer over some rows add up to a total, unless groups have been cut off. -/
def AddsUp (q : ChartQuery) (t : Table) (answer : Except Failure (List Fields)) (total : Int) :
    Prop :=
  ∀ rows, answer = .ok rows → rows.length = (q.groups t).length →
    (rows.map (numberIn q.grouping.metricName)).sum = total

end Report

namespace Facets

variable {x : Facets} {first last : Date}

/-- A listing that is asked for the first page tells the number of all events that it takes. -/
theorem list_listFilters (x : Facets) (first last : Date) (t : Table) :
    ∃ p, (t.list (x.listFilters first last)).mapError Failure.fault = .ok p ∧
      p.pagination.total = t.countP (x.listFilters first last).accepts := by
  have hfits : Table.fitsPage (x.listFilters first last).offset
      (x.listFilters first last).limit = true := rfl
  rw [Table.list_eq, if_pos hfits]
  exact ⟨_, rfl, by simp [Table.length_matching, Pagination.build]⟩

/-- A query whose conditions are those of the filters on rows on which both filters agree. -/
theorem addsUp {q : Report.ChartQuery} (hq : q.metric = .events) {t : Table}
    (hconditions : ∀ e ∈ t, q.conditions.all (·.holds e) =
      (x.widgetConditions first last).all (·.holds e))
    (hagree : ∀ e ∈ t, (x.widgetConditions first last).all (·.holds e) =
      (x.listFilters first last).accepts e)
    {answer : Except Failure (List Fields)}
    (hrows : ∀ rows, answer = .ok rows → ∃ m, rows = q.rows t m) :
    Report.AddsUp q t answer (t.countP (x.listFilters first last).accepts) := by
  rintro rows hanswer hall
  obtain ⟨m, rfl⟩ := hrows rows hanswer
  rw [Report.ChartQuery.sum_rows hq hall, Nat.cast_inj]
  exact List.countP_congr fun e he ↦ by rw [hconditions e he, hagree e he]

/-- The conditions of a compiled query over the filters of a widget. -/
theorem conditions_of_compile (hfirst : first.IsReal) (hlast : last.IsReal)
    (hend : last ≠ Report.lastDate) {w : Widget} {columns : List String} {dialect : Value}
    {scope : Option Scope} {q : Report.ChartQuery}
    (hq : Report.compile w columns (some (x.widgetFilters first last)) dialect scope = .ok q) :
    q.metric = Report.metricOf w ∧ ∃ tenant, Report.scopeConditions scope = .ok tenant ∧
      q.conditions = tenant ++ x.widgetConditions first last := by
  obtain ⟨d, tenant, filtered, -, -, -, htenant, hfiltered, rfl⟩ := Report.compile_cases hq
  cases (filterConditions_widgetFilters x hfirst hlast hend).symm.trans hfiltered
  exact ⟨rfl, tenant, htenant, rfl⟩

/-- A count widget of a store adds up to the total of a listing that takes the same events. -/
theorem addsUp_run (hfirst : first.IsReal) (hlast : last.IsReal) (hend : last ≠ Report.lastDate)
    {c : Connection} (hc : c.IsSound) (hsite : ∀ e ∈ c.content, e.site = c.store.site)
    (hagree : ∀ e ∈ c.content, (x.widgetConditions first last).all (·.holds e) =
      (x.listFilters first last).accepts e)
    {w : Widget} (hw : w.aggregation = .count) {columns : List String} {dialect : Value}
    {q : Report.ChartQuery}
    (hq : Report.compile w columns (some (x.widgetFilters first last)) dialect none = .ok q)
    (limit : Value) :
    ∃ p, (c.list (x.listFilters first last)).1 = .ok p ∧
      Report.AddsUp q c.content (c.run (.chart q) limit).1 p.pagination.total := by
  obtain ⟨p, hp, htotal⟩ := list_listFilters x first last c.content
  obtain ⟨hmetric, tenant, htenant, hconditions⟩ := conditions_of_compile hfirst hlast hend hq
  cases htenant
  have hown : c.content.ofSite c.store.site = c.content :=
    List.filter_eq_self.2 fun e he ↦ beq_iff_eq.2 (hsite e he)
  refine ⟨p, (congrArg Prod.fst (Connection.reads_list _ c hc)).trans hp, ?_⟩
  rw [htotal]
  refine addsUp (by simp [hmetric, Report.metricOf, hw]) (fun e _ ↦ by rw [hconditions]; rfl)
    hagree fun rows hrows ↦ ?_
  cases hbound : rowBound limit c.store.maxRows with
  | error f => simp [Connection.run, hbound] at hrows
  | ok bound =>
    simp only [Connection.run, hbound, Connection.table_prepared hc] at hrows
    have := Report.ChartQuery.exists_rows_of_run rfl hrows
    rwa [Connection.site_prepared, hown] at this

/-- So does one over the table that teams share. -/
theorem addsUp_server_run (hfirst : first.IsReal) (hlast : last.IsReal)
    (hend : last ≠ Report.lastDate) {s : Server} {t : Table} (ht : s.table = some t)
    {n team : Int} (hseeks : Server.Seeks (.number n) team)
    (hagree : ∀ e ∈ t.rowsOf (.number n) team, (x.widgetConditions first last).all (·.holds e) =
      (x.listFilters first last).accepts e)
    {w : Widget} (hw : w.aggregation = .count) {columns : List String} {dialect : Value}
    {q : Report.ChartQuery}
    (hq : Report.compile w columns (some (x.widgetFilters first last)) dialect
      (some (.of (.number n) team)) = .ok q) (limit : Value) :
    ∃ p, s.list (.of (.number n) team) (x.listFilters first last) = .ok p ∧
      Report.AddsUp q (t.rowsOf (.number n) team) (s.run (.of (.number n) team) (.chart q) limit)
        p.pagination.total := by
  obtain ⟨p, hp, htotal⟩ := list_listFilters x first last (t.rowsOf (.number n) team)
  obtain ⟨hmetric, tenant, htenant, hconditions⟩ := conditions_of_compile hfirst hlast hend hq
  cases htenant
  refine ⟨p, by rw [Server.list_of ht, if_pos hseeks, hp], ?_⟩
  rw [htotal]
  refine addsUp (by simp [hmetric, Report.metricOf, hw]) (fun e he ↦ ?_) hagree
    fun rows hrows ↦ ?_
  · have hfor : e.team = some team ∧ e.site = n := by
      simpa [StoredEvent.isFor, SiteRef.isOf] using (Table.mem_rowsOf.1 he).2
    have hsite : Report.cellOfField "site_id" e = .whole e.site := rfl
    have hteam : Report.cellOfField "team_id" e = .ofWhole e.team := rfl
    simp [hconditions, Report.Condition.holds, hsite, hteam, hfor, Cell.ofWhole]
  · rw [Server.run_of ht] at hrows
    cases hbound : rowBound limit s.maxRows with
    | error f =>
      rw [hbound] at hrows
      cases hrows
    | ok bound =>
      rw [hbound] at hrows
      exact Report.ChartQuery.exists_rows_of_run rfl hrows

/-- Over whole days a widget and a listing select the same events but for those that are too late for
the listing or lack a text of blanks. On rows that both select alike, the counts of a widget add up
to the total of the listing. -/
theorem selects_alike_iff (x : Facets) (hfirst : first.IsReal) (hlast : last.IsReal)
    (hend : last ≠ Report.lastDate) :
    ∃ cs f, Report.filterConditions (some (x.widgetFilters first last)) = .ok cs ∧
      EventFilters.read (x.request first last) = .accepted f ∧
      (∀ e, cs.all (·.holds e) = f.accepts e ↔
        (Instant.ofDate first ≤ e.createdAt → e.createdAt.day ≤ last.number →
          x.meets isFilled e = true →
          (x.meets isBlanks e = true ↔ e.createdAt ≤ (Instant.ofDate last).endOfDay))) ∧
      (∀ c : Connection, c.IsSound → (∀ e ∈ c.content, e.site = c.store.site) →
        (∀ e ∈ c.content, cs.all (·.holds e) = f.accepts e) →
        ∀ w : Widget, w.aggregation = .count → ∀ columns dialect q,
          Report.compile w columns (some (x.widgetFilters first last)) dialect none = .ok q →
          ∀ limit, ∃ p, (c.list f).1 = .ok p ∧
            Report.AddsUp q c.content (c.run (.chart q) limit).1 p.pagination.total) ∧
      ∀ (s : Server) t, s.table = some t → ∀ n team, Server.Seeks (.number n) team →
        (∀ e ∈ t.rowsOf (.number n) team, cs.all (·.holds e) = f.accepts e) →
        ∀ w : Widget, w.aggregation = .count → ∀ columns dialect q,
          Report.compile w columns (some (x.widgetFilters first last)) dialect
            (some (.of (.number n) team)) = .ok q →
          ∀ limit, ∃ p, s.list (.of (.number n) team) f = .ok p ∧
            Report.AddsUp q (t.rowsOf (.number n) team)
              (s.run (.of (.number n) team) (.chart q) limit) p.pagination.total :=
  ⟨x.widgetConditions first last, x.listFilters first last,
    filterConditions_widgetFilters x hfirst hlast hend, read_request x hfirst hlast,
    all_widgetConditions_eq_accepts_iff x first last,
    fun _ hc hsite hagree _ hw _ _ _ hq limit ↦
      addsUp_run hfirst hlast hend hc hsite hagree hw hq limit,
    fun _ _ ht _ _ hseeks hagree _ hw _ _ _ hq limit ↦
      addsUp_server_run hfirst hlast hend ht hseeks hagree hw hq limit⟩

/-- The first of January 2024. -/
def newYear : Date := ⟨2024, 1, 1⟩

/-- A store with one view, at the start of the year. -/
def newYearStore : Connection :=
  ⟨{ site := 1 }, some [{ Backend.viewRow 1 1 10 with createdAt := .ofDate newYear }]⟩

/-- The views of each event on that day. -/
def newYearQuery : Report.ChartQuery :=
  ⟨.sqlite, .values "event", .events, widgetConditions {} newYear newYear, 25⟩

theorem selects_alike_iff_newYear :
    newYear.IsReal ∧ newYear ≠ Report.lastDate ∧
    Report.compile { xField := "event" } ["event"] (some (widgetFilters {} newYear newYear))
      (.text "sqlite") none = .ok newYearQuery ∧
    ∃ f p rows, EventFilters.read (request {} newYear newYear) = .accepted f ∧
      (newYearStore.list f).1 = .ok p ∧ (newYearStore.run (.chart newYearQuery) .null).1 = .ok rows ∧
      (rows.map (Report.numberIn "y")).sum = p.pagination.total := by
  have hreal : newYear.IsReal := by decide
  have hend : newYear ≠ Report.lastDate := by decide
  have hcompile : Report.compile { xField := "event" } ["event"]
      (some (widgetFilters {} newYear newYear)) (.text "sqlite") none = .ok newYearQuery := rfl
  have hrun : ((newYearStore.run (.chart newYearQuery) .null).1.toOption.any
      fun rows ↦ rows.length == (newYearQuery.groups newYearStore.content).length) = true := by
    decide +kernel
  obtain ⟨cs, f, -, hf, hiff, hstore, -⟩ := selects_alike_iff {} hreal hreal hend
  have hagree : ∀ e ∈ newYearStore.content, cs.all (·.holds e) = f.accepts e := by
    intro e he
    rw [List.mem_singleton.1 he, hiff]
    decide
  obtain ⟨p, hp, hsum⟩ := hstore newYearStore (fun _ ↦ rfl) (by decide) hagree
    { xField := "event" } rfl ["event"] (.text "sqlite") newYearQuery hcompile .null
  cases hrows : (newYearStore.run (.chart newYearQuery) .null).1 with
  | error e =>
    rw [hrows] at hrun
    cases hrun
  | ok rows =>
    rw [hrows] at hrun
    exact ⟨hreal, hend, hcompile, f, p, rows, hf, hp, rfl, hsum rows hrows (eq_of_beq hrun)⟩

/-- A view in the last microsecond of the day. -/
def lateView : StoredEvent :=
  { Backend.viewRow 1 1 10 with
    createdAt := ⟨(Instant.ofDate newYear).micros + Instant.dayLength - 1⟩ }

/-- The view is selected by a widget for the day, and not by a listing of it. A blank country is no
filter of a listing, and no event has it. -/
theorem lateView_not_listed :
    (∃ cs f, Report.filterConditions (some (widgetFilters {} newYear newYear)) = .ok cs ∧
      EventFilters.read (request {} newYear newYear) = .accepted f ∧
      cs.all (·.holds lateView) = true ∧ f.accepts lateView = false) ∧
    ∃ cs f,
      Report.filterConditions (some (widgetFilters { country := some " " } newYear newYear)) =
        .ok cs ∧
      EventFilters.read (request { country := some " " } newYear newYear) = .accepted f ∧
      cs.all (·.holds { lateView with createdAt := .ofDate newYear }) = false ∧
      f.accepts { lateView with createdAt := .ofDate newYear } = true := by
  have hreal : newYear.IsReal := by decide
  have hend : newYear ≠ Report.lastDate := by decide
  refine ⟨⟨_, _, filterConditions_widgetFilters {} hreal hreal hend, read_request {} hreal hreal,
    ?_, ?_⟩, _, _, filterConditions_widgetFilters _ hreal hreal hend,
    read_request _ hreal hreal, ?_, ?_⟩
  · rw [all_widgetConditions]
    decide
  · rw [accepts_listFilters]
    decide
  · rw [all_widgetConditions]
    decide
  · rw [accepts_listFilters]
    decide

end Facets

end Footfall
