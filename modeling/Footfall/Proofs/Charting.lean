import Footfall.Proofs.Batch
import Footfall.Proofs.DayRange
import Footfall.Proofs.Doubles
import Footfall.Proofs.Ranking

/-!
A chart from its widget to its data. A widget that counts events, or sessions, under the texts of one
or two columns compiles to a query which the store runs; the rows become points, and these are the
ranking of the events that the filters take.
-/

namespace Footfall

namespace Report

/-- A text that a store can be handed. -/
def HasNoNull (s : String) : Prop := '\x00' ∉ s.toList

instance (s : String) : Decidable (HasNoNull s) := inferInstanceAs (Decidable ('\x00' ∉ s.toList))

theorem isRunnable_of_hasNoNull {s : String} (h : HasNoNull s) : Sql.isRunnable s = true := by
  simpa [Sql.isRunnable, HasNoNull] using h

namespace HasNoNull

variable {a b : String}

theorem append (ha : HasNoNull a) (hb : HasNoNull b) : HasNoNull (a ++ b) := by
  simpa [HasNoNull] using And.intro ha hb

theorem of_isDigit {cs : List Char} (h : ∀ c ∈ cs, c.isDigit = true) :
    HasNoNull (String.ofList cs) := by
  intro hmem
  rw [String.toList_ofList] at hmem
  exact absurd (h _ hmem) (by decide)

theorem padded (w n : Nat) : HasNoNull (padded w n) := by
  refine of_isDigit fun c hc ↦ ?_
  rcases List.mem_append.1 hc with hc | hc
  · rw [(List.mem_replicate.1 hc).2]
    rfl
  · exact Nat.isDigit_of_mem_toDigits (by decide) (by decide) hc

theorem toString_int (n : Int) : HasNoNull (toString n) := fun h ↦
  (isDigit_of_mem_toString h).elim (by decide) (by decide)

theorem midnightText (day : Date) : HasNoNull (midnightText day) :=
  ((((padded 4 _).append (b := "-") (by decide)).append (padded 2 _) |>.append (b := "-")
    (by decide)).append (padded 2 _)).append (by decide)

theorem literal (h : HasNoNull a) : HasNoNull (literal a) := by
  have hdoubled (cs : List Char) (hcs : '\x00' ∉ cs) : '\x00' ∉ doubled cs := by
    induction cs with
    | nil => exact hcs
    | cons c cs ih =>
      obtain ⟨hc, hcs⟩ := not_or.1 (List.mem_cons.not.1 hcs)
      rw [doubled]
      split <;> simp [ih hcs, hc]
  rw [HasNoNull, Report.literal, String.toList_ofList]
  simpa using hdoubled _ h

theorem identifier (h : HasNoNull a) : HasNoNull (identifier a) :=
  (HasNoNull.append (by decide) h).append (by decide)

end HasNoNull

theorem hasNoNull_of_common : ∀ s ∈ words ++ patterns, HasNoNull s := by
  decide

/-- The text of a query has a null only if a name in it or the text of a condition has one. -/
theorem ChartQuery.hasNoNull_text {q : ChartQuery} (hnames : ∀ f ∈ namesIn q.pieces, HasNoNull f)
    (hvalues : ∀ field value, .text field value ∈ q.conditions → HasNoNull value) :
    HasNoNull q.text := by
  rw [HasNoNull, ← q.written_pieces, written, List.mem_flatMap]
  rintro ⟨p, hp, hnull⟩
  have hof := q.areOf_pieces p hp
  cases p with
  | word s => exact hasNoNull_of_common s (List.mem_append_left _ hof) hnull
  | name field => exact (hnames field (List.mem_filterMap.2 ⟨_, hp, rfl⟩)).identifier hnull
  | value s =>
    rcases hof with hs | ⟨day, rfl⟩ | ⟨field, htext⟩
    · exact (hasNoNull_of_common s (List.mem_append_right _ hs)).literal hnull
    · exact (HasNoNull.midnightText day).literal hnull
    · exact (hvalues field s htext).literal hnull
  | whole n => exact HasNoNull.toString_int n hnull

/-- A store runs a chart over its own rows, at most as many of them as it is allowed to give. -/
theorem run_chart {c : Connection} (hc : c.IsSound) (hsite : ∀ e ∈ c.content, e.site = c.store.site)
    {limit bound : Value} (hbound : rowBound limit c.store.maxRows = .ok bound) {q : ChartQuery}
    (hcheck : Sql.checkText q.text = .ok q.text) {n : Option Int}
    (hneeded : Sql.neededLimit q.text bound = .ok n) (hfits : n.all fitsTable = true)
    (hnull : HasNoNull q.text) :
    (c.run (.chart q) limit).1 = .ok (q.rows c.content (n.getD (-1))) := by
  have hown : c.content.ofSite c.store.site = c.content :=
    List.filter_eq_self.2 fun e he ↦ beq_iff_eq.2 (hsite e he)
  have hrows : (TableQuery.chart q).rows? q.text n c.content =
      some (q.rows c.content (n.getD (-1))) := by
    rw [TableQuery.rows?, isRunnable_of_hasNoNull hnull, hfits]
    rfl
  simp only [Connection.run, hbound, Connection.table_prepared hc, Connection.site_prepared,
    TableQuery.run, TableQuery.check, hcheck, hneeded, Except.mapError, bind, Except.bind,
    Option.bind_some, hown, hrows, pure, Except.pure]

/-- The columns of texts, each with the text that an event has in it. -/
def textColumns : List (String × (StoredEvent → Option String)) :=
  [("tag_id", fun e ↦ some e.tag), ("event", fun e ↦ some e.event),
    ("page_url", (·.context.pageUrl)), ("client_page_url", (·.context.clientPageUrl)),
    ("referer", (·.context.referer)), ("browser", (·.context.browser)),
    ("operating_system", (·.context.operatingSystem)), ("device_type", (·.context.deviceType)),
    ("country", (·.context.country)), ("region", (·.context.region)), ("city", (·.context.city)),
    ("postal", (·.context.postal)), ("rid", (·.context.rid))]

theorem cellOfField_name (c : Column) (e : StoredEvent) : cellOfField c.name e = e.cell c := by
  rw [cellOfField, Column.ofName?_name]
  rfl

theorem cellOfField_textColumns : ∀ p ∈ textColumns, ∀ e, cellOfField p.1 e = .ofText (p.2 e) := by
  simp only [textColumns, List.forall_mem_cons]
  exact ⟨cellOfField_name .tag, cellOfField_name .event, cellOfField_name .pageUrl,
    cellOfField_name .clientPageUrl, cellOfField_name .referer, cellOfField_name .browser,
    cellOfField_name .operatingSystem, cellOfField_name .deviceType, cellOfField_name .country,
    cellOfField_name .region, cellOfField_name .city, cellOfField_name .postal,
    cellOfField_name .rid, by simp⟩

theorem textColumns_spec : ∀ p ∈ textColumns, IsGood Backend.columns p.1 ∧ p.1 ≠ timeField ∧
    ∀ e, fieldText p.1 e = p.2 e := by
  have hgood : ∀ s ∈ textColumns.map Prod.fst, isIdentifier s = true ∧ s ∈ Backend.columns ∧
      s ≠ timeField := by decide
  intro p hp
  obtain ⟨hname, hmem, htime⟩ := hgood p.1 (List.mem_map_of_mem hp)
  refine ⟨⟨(isIdentifier_iff _).1 hname, hmem⟩, htime, fun e ↦ ?_⟩
  rw [fieldText, cellOfField_textColumns p hp, Facets.asText_ofText]

/-- A widget over columns of texts. -/
def IsOver (w : Widget) (gs : List (StoredEvent → Option String)) : Prop :=
  List.Forall₂ (fun field g ↦ (field, g) ∈ textColumns) (groupFields w) gs

/-- A widget whose chart gives each event these labels. -/
structure LabelsBy (w : Widget) (texts : StoredEvent → List String) : Prop where
  ne_days : groupingOf w ≠ .days
  labels_eq : ∀ e, (groupingOf w).labels e = (texts e).map some

/-- Events are labelled by the fields that they are grouped by, unless that is the time. -/
theorem labelsBy_groupFields {w : Widget} (h : timeField ∉ groupFields w) :
    LabelsBy w fun e ↦ (groupFields w).map (labelOf · e) := by
  unfold groupFields at h ⊢
  by_cases hw : w.chart = .sankey
  · have hflow : groupingOf w = .flow w.sourceField w.targetField := if_pos hw
    simp only [if_pos hw]
    exact ⟨by simp [hflow], fun e ↦ by simp [hflow, Grouping.labels]⟩
  · simp only [if_neg hw] at h ⊢
    have hvalues : groupingOf w = .values w.xField := by
      rw [groupingOf, if_neg hw, if_neg fun heq ↦ h (List.mem_singleton.2 heq.symm)]
    exact ⟨by simp [hvalues], fun e ↦ by simp [hvalues, Grouping.labels]⟩

end Report

namespace WidgetFilters

open Report

variable {f : WidgetFilters} {e : StoredEvent}

/-- The texts that are asked for, each with the text of an event that has to be the same. -/
def texts (f : WidgetFilters) : List (Option String × (StoredEvent → Option String)) :=
  [(f.device, (·.context.deviceType)), (f.country, (·.context.country)), (f.city, (·.context.city)),
    (f.region, (·.context.region)), (f.source, (·.context.referer)), (f.page, (·.context.pageUrl)),
    (f.event, fun e ↦ some e.event)]

/-- An event that the filters take: if both ends of the range are days it is of a day between them,
and it has all texts that are not empty. -/
def Takes (f : WidgetFilters) (e : StoredEvent) : Prop :=
  (∀ first last, IsDayText f.start first → IsDayText f.stop last →
      first.number ≤ e.createdAt.day ∧ e.createdAt.day ≤ last.number) ∧
    ∀ p ∈ f.texts, ∀ s, p.1 = some s → s ≠ "" → p.2 e = some s

def takes (f : WidgetFilters) (e : StoredEvent) : Bool :=
  (match dateOf? f.start, dateOf? f.stop with
    | some first, some last =>
      decide (first.number ≤ e.createdAt.day ∧ e.createdAt.day ≤ last.number)
    | _, _ => true) &&
    f.texts.all fun p ↦ p.1.all fun s ↦ s.isEmpty || p.2 e == some s

theorem all_texts_iff :
    (f.texts.all fun p ↦ p.1.all fun s ↦ s.isEmpty || p.2 e == some s) = true ↔
      ∀ p ∈ f.texts, ∀ s, p.1 = some s → s ≠ "" → p.2 e = some s := by
  simp only [List.all_eq_true, Option.all_eq_true, Bool.or_eq_true, String.isEmpty_iff, beq_iff_eq,
    or_iff_not_imp_left, ne_eq]

theorem takes_iff : f.takes e = true ↔ f.Takes e := by
  rw [takes, Bool.and_eq_true, Takes]
  refine and_congr ?_ all_texts_iff
  simp only [← dateOf?_eq_some_iff]
  split
  · rename_i first last hfirst hlast
    simp [hfirst, hlast]
  · rename_i hno
    exact iff_of_true rfl fun first last hfirst hlast ↦ absurd hlast (hno first last hfirst)

instance : Decidable (f.Takes e) := decidable_of_iff _ takes_iff

theorem texts_eq (f : WidgetFilters) :
    f.texts = (textFilters f).map fun p ↦ (p.2, fieldText p.1) := by
  have hcolumn {p : String × (StoredEvent → Option String)} (hp : p ∈ textColumns) :
      fieldText p.1 = p.2 := funext (textColumns_spec p hp).2.2
  have hdevice := hcolumn (p := ("device_type", (·.context.deviceType))) (by simp [textColumns])
  have hcountry := hcolumn (p := ("country", (·.context.country))) (by simp [textColumns])
  have hcity := hcolumn (p := ("city", (·.context.city))) (by simp [textColumns])
  have hregion := hcolumn (p := ("region", (·.context.region))) (by simp [textColumns])
  have hsource := hcolumn (p := ("referer", (·.context.referer))) (by simp [textColumns])
  have hpage := hcolumn (p := ("page_url", (·.context.pageUrl))) (by simp [textColumns])
  have hevent := hcolumn (p := ("event", fun e ↦ some e.event)) (by simp [textColumns])
  simp only [textFilters, List.map_cons, List.map_nil, hdevice, hcountry, hcity, hregion, hsource,
    hpage, hevent]
  rfl

/-- The conditions of a query hold of the events that the filters take. -/
theorem all_conditions_iff {days : List Condition} (hdays : dayConditions f = .ok days) :
    (days ++ Report.textConditions f).all (·.holds e) = true ↔ f.Takes e := by
  rw [List.all_append, Bool.and_eq_true, all_textConditions, Takes]
  refine and_congr ?_ ?_
  · rcases dayRange_cases f with ⟨-, hdays'⟩ | ⟨hno, hdays'⟩ | ⟨a, b, ha, hb, -, hdays'⟩
    · cases hdays.symm.trans hdays'
    · cases hdays.symm.trans hdays'
      exact iff_of_true rfl fun first last hfirst hlast ↦ absurd ⟨first, last, hfirst, hlast⟩ hno
    · cases hdays.symm.trans hdays'
      have hrange : [Condition.since a, .before (dayAfter b)].all (·.holds e) = true ↔
          a.number ≤ e.createdAt.day ∧ e.createdAt.day ≤ b.number := by
        simp [Condition.holds, Instant.ofDate_le_iff_day, Instant.lt_ofDate_iff_day, dayAfter,
          Date.number_ofNumber]
      rw [hrange]
      refine ⟨fun h first last hfirst hlast ↦ ?_, fun h ↦ h a b ha hb⟩
      cases hfirst.unique ha
      cases hlast.unique hb
      exact h
  · rw [← all_texts_iff, texts_eq, List.all_map]
    rfl

end WidgetFilters

namespace Report

/-- The keys of the data of a chart, that of the counts last. -/
def dataKeys (w : Widget) : List String :=
  if w.chart = .sankey then ["source", "target", "value"] else ["x", "y"]

def Point.toValue (w : Widget) (p : Point) : Value :=
  .object ((dataKeys w).zip (p.labels.map .text ++ [.int p.count]))

theorem metricNumber_int {n : Nat} (h : n < 2 ^ 53) : metricNumber (.int n) = .ok (.int n) := by
  obtain ⟨hfinite, hwhole⟩ := Double.whole?_ofInt h
  have hreal : (Value.int n).toReal = .ok (Double.ofInt n) := by
    rw [Value.toReal]
    split
    · rename_i s hs
      rw [hs] at hfinite
      cases hfinite
    · rfl
  simp only [metricNumber, hreal, hwhole, bind, Except.bind]
  rfl

variable {w : Widget} {gs : List (StoredEvent → Option String)}
  {texts : StoredEvent → List String} {filters : Option WidgetFilters}

/-- A group of an answer is shown with the labels of its events and its number. -/
theorem shapeRow_group (w : Widget) (e : StoredEvent) {m : Measure} {v : Value}
    (hm : metricNumber m.toValue = .ok v) :
    shapeRow w (.object (Group.toFields (groupingOf w) ⟨(groupingOf w).labels e, m⟩)) =
      .ok (.object ((dataKeys w).zip (((groupingOf w).labels e).map Value.ofText ++ [v]))) := by
  by_cases hw : w.chart = .sankey
  · rw [groupingOf, if_pos hw, shapeRow, if_pos hw, dataKeys, if_pos hw]
    show (metricNumber m.toValue >>= fun v ↦ .ok (Value.object
      [("source", .text (labelOf w.sourceField e)), ("target", .text (labelOf w.targetField e)),
        ("value", v)])) = _
    rw [hm]
    rfl
  · rw [shapeRow, if_neg hw, dataKeys, if_neg hw]
    obtain ⟨label, hlabel, hnames, hmetric⟩ : ∃ label, (groupingOf w).labels e = [label] ∧
        (groupingOf w).labelNames = ["x"] ∧ (groupingOf w).metricName = "y" := by
      rw [groupingOf, if_neg hw]
      split
      · exact ⟨_, rfl, rfl, rfl⟩
      · exact ⟨_, rfl, rfl, rfl⟩
    rw [Group.toFields, hlabel, hnames, hmetric]
    show (metricNumber m.toValue >>= fun v ↦
      .ok (Value.object [("x", Value.ofText label), ("y", v)])) = _
    rw [hm]
    rfl

theorem tally_le (a : Aggregation) (events : Table) : tally a events ≤ events.length := by
  cases a
  case uniqueUsers =>
    exact (List.toFinset_card_le _).trans (List.length_filterMap_le _ _)
  all_goals exact Nat.le_refl _

/-- The data of a chart are the points that are ranked, if the events can be counted exactly. -/
theorem shape_points (hw : LabelsBy w texts) {events : Table} {size : Nat} {points : List Point}
    (hsize : events.length < 2 ^ 53)
    (hpoints : IsRanking texts w.aggregation events size points) :
    shape w ((points.map fun p ↦ p.group.toFields (groupingOf w)).map .object) =
      .ok (points.map (Point.toValue w)) := by
  have hrow : ∀ p ∈ points,
      shapeRow w (.object (p.group.toFields (groupingOf w))) = .ok (p.toValue w) := by
    intro p hp
    obtain ⟨e, -, hlabels⟩ := List.mem_map.1 (hpoints.mem p hp)
    have hcount : p.count < 2 ^ 53 := by
      rw [hpoints.count_eq p hp]
      exact ((tally_le _ _).trans (List.length_filter_le _ _)).trans_lt hsize
    have hshape := shapeRow_group w e (m := .count p.count) (metricNumber_int hcount)
    rw [hw.labels_eq, hlabels, List.map_map] at hshape
    exact hshape
  rw [shape, mapM_eq_ok_iff, List.map_map, List.forall₂_map_left_iff, List.forall₂_map_right_iff]
  exact List.forall₂_same.2 hrow

/-- A metric that counts names no field, and measures by the tally. -/
theorem metricOf_tallies (ha : w.aggregation = .count ∨ w.aggregation = .uniqueUsers) :
    metricFields w = [] ∧
      ∀ rows, (metricOf w).measure rows = .count (tally w.aggregation rows) := by
  rcases ha with ha | ha
  · simp [metricOf, metricFields, ha, Metric.measure, tally]
  · simp [metricOf, metricFields, ha, Metric.measure, tally, List.card_toFinset, distinct_eq_dedup]

variable {f : WidgetFilters}

theorem mem_textFilters_of_mem_activeFilters {name s : String} (h : (name, s) ∈ activeFilters f) :
    (name, some s) ∈ textFilters f := by
  obtain ⟨⟨name, v⟩, hfilter, hvalue⟩ := List.mem_filterMap.1 h
  cases v with
  | none => cases hvalue
  | some v =>
    simp only at hvalue
    split at hvalue
    · cases hvalue
    · cases hvalue
      exact hfilter

/-- The texts that conditions compare with are those of the filters. -/
theorem mem_texts_of_filterConditions {cs : List Condition}
    (h : filterConditions filters = .ok cs) {field value : String}
    (htext : .text field value ∈ cs) : ∃ f ∈ filters, (some value, fieldText field) ∈ f.texts := by
  cases filters with
  | none =>
    cases h
    cases htext
  | some f =>
    obtain ⟨days, hdays, hcs⟩ := bind_eq_ok_iff.1 h
    cases hcs
    rcases List.mem_append.1 htext with htext | htext
    · cases isOnDay_of_mem_dayConditions hdays _ htext
    · obtain ⟨⟨name, s⟩, hactive, hcondition⟩ := List.mem_map.1 htext
      cases hcondition
      refine ⟨f, rfl, ?_⟩
      rw [f.texts_eq]
      exact List.mem_map_of_mem (mem_textFilters_of_mem_activeFilters hactive)

/-- The conditions of a query are those of its filters. -/
theorem all_filterConditions_iff {cs : List Condition} (h : filterConditions filters = .ok cs)
    (e : StoredEvent) : cs.all (·.holds e) = true ↔ ∀ f ∈ filters, f.Takes e := by
  cases filters with
  | none =>
    cases h
    simp
  | some f =>
    obtain ⟨days, hdays, hcs⟩ := bind_eq_ok_iff.1 h
    cases hcs
    rw [WidgetFilters.all_conditions_iff hdays]
    simp

theorem noFilters_hasNoNull : ∀ f ∈ (none : Option WidgetFilters), ∀ p ∈ f.texts, ∀ s,
    p.1 = some s → HasNoNull s := by
  simp

/-- A widget over good fields compiles over all filters but those whose range runs out. -/
theorem exists_query (hfields : ∀ field ∈ referencedFields w, IsGood Backend.columns field)
    (hend : ∀ f ∈ filters, ¬RunsOut f) :
    ∃ q, compile w Backend.columns filters (.text "sqlite") none = .ok q := by
  have hdialect : Dialect.ofValue (.text "sqlite") = .ok .sqlite := rfl
  cases filters with
  | none => exact compile_of_isGood hdialect rfl hfields
  | some f => exact exists_compile hdialect hfields rfl (hend f rfl)

/-- What a store's own query of a widget is made of. -/
theorem parts_of_compile {q : ChartQuery}
    (hq : compile w Backend.columns filters (.text "sqlite") none = .ok q) :
    ∃ filtered, filterConditions filters = .ok filtered ∧
      q = ⟨.sqlite, groupingOf w, metricOf w, filtered, rowLimit w.limit⟩ := by
  obtain ⟨d, tenant, filtered, hd, -, htenant, hfiltered, hparts⟩ := compile_parts hq
  cases hd
  cases htenant
  exact ⟨filtered, hfiltered, hparts⟩

/-- The text of a query has no null if the texts of its filters have none. -/
theorem hasNoNull_of_compile (hnull : ∀ f ∈ filters, ∀ p ∈ f.texts, ∀ s, p.1 = some s → HasNoNull s)
    {q : ChartQuery} (hq : compile w Backend.columns filters (.text "sqlite") none = .ok q) :
    HasNoNull q.text := by
  have hcolumns : ∀ s ∈ Backend.columns, HasNoNull s := by decide
  obtain ⟨d, tenant, filtered, -, hfields, htenant, hfiltered, hparts⟩ := compile_parts hq
  cases htenant
  have hgood {name : String} (h : name ∈ referencedFields w ∨ IsImplied w none name) :
      name ∈ Backend.columns := by
    rcases h with hfield | himplied
    · exact mem_of_checkName (hfields name hfield).choose_spec
    · cases himplied <;> decide
  have hnames : ∀ name ∈ namesIn q.pieces, name ∈ Backend.columns := by
    intro name hname
    rw [q.namesIn_pieces, hparts] at hname
    rcases List.mem_append.1 hname with hname | hname
    · exact hgood ((List.mem_append.1 hname).elim mem_names_groupingOf mem_names_metricOf)
    · obtain ⟨c, hc, rfl⟩ := List.mem_map.1 hname
      exact field_mem_of_filterConditions hfiltered c hc
  refine q.hasNoNull_text (fun name hname ↦ hcolumns name (hnames name hname)) ?_
  intro field value htext
  rw [hparts] at htext
  obtain ⟨f, hf, hmem⟩ := mem_texts_of_filterConditions hfiltered htext
  exact hnull f hf _ hmem value rfl

/-- Only a time series needs a limit to be given to it. -/
theorem neededLimit_of_compile {q : ChartQuery}
    (hq : compile w Backend.columns filters (.text "sqlite") none = .ok q) (bound : Value) :
    Sql.neededLimit q.text bound =
      if groupingOf w = .days then some <$> bound.toWhole else .ok none := by
  rw [Sql.neededLimit, (check_of_compile hq).2]
  by_cases hdays : groupingOf w = .days
  · rw [if_pos hdays, if_neg (by simp [hdays])]
  · rw [if_neg hdays, if_pos (by simp [hdays])]

/-- A store runs its own query of a widget. The bound on its answers is for time series only. -/
theorem run_of_compile {q : ChartQuery}
    (hq : compile w Backend.columns filters (.text "sqlite") none = .ok q) {c : Connection}
    (hc : c.IsSound) (hsite : ∀ e ∈ c.content, e.site = c.store.site)
    (hnull : ∀ f ∈ filters, ∀ p ∈ f.texts, ∀ s, p.1 = some s → HasNoNull s) {limit bound : Value}
    (hbound : rowBound limit c.store.maxRows = .ok bound) {n : Int}
    (hn : groupingOf w = .days → bound.toWhole = .ok n ∧ fitsTable n = true) :
    (c.run (.chart q) limit).1 =
      .ok (q.rows c.content (if groupingOf w = .days then n else -1)) := by
  have hneeded := neededLimit_of_compile hq bound
  have hcheck := checkText_of_compile hq
  have hrunnable := hasNoNull_of_compile hnull hq
  by_cases hdays : groupingOf w = .days
  · obtain ⟨hwhole, hfits⟩ := hn hdays
    rw [if_pos hdays, hwhole] at hneeded
    rw [if_pos hdays]
    exact run_chart hc hsite hbound hcheck hneeded hfits hrunnable
  · rw [if_neg hdays] at hneeded
    rw [if_neg hdays]
    exact run_chart hc hsite hbound hcheck hneeded rfl hrunnable

/-- The chart of a widget that counts events or sessions is the ranking of the events of the store
that the filters take by their labels. -/
theorem chart_of_labels (hw : LabelsBy w texts)
    (hfields : ∀ field ∈ groupFields w, IsGood Backend.columns field)
    (ha : w.aggregation = .count ∨ w.aggregation = .uniqueUsers) {c : Connection} (hc : c.IsSound)
    (hsite : ∀ e ∈ c.content, e.site = c.store.site)
    (hnull : ∀ f ∈ filters, ∀ p ∈ f.texts, ∀ s, p.1 = some s → HasNoNull s)
    (hend : ∀ f ∈ filters, ¬RunsOut f) {limit bound : Value}
    (hbound : rowBound limit c.store.maxRows = .ok bound) :
    ∃ q points, compile w Backend.columns filters (.text "sqlite") none = .ok q ∧
      (c.run (.chart q) limit).1 = .ok (points.map fun p ↦ p.group.toFields (groupingOf w)) ∧
      IsRanking texts w.aggregation (c.content.filter fun e ↦ ∀ f ∈ filters, f.Takes e)
        (rowLimit w.limit).toNat points := by
  obtain ⟨q, hq⟩ := exists_query (w := w) (by
    rw [referencedFields, (metricOf_tallies ha).1, List.append_nil]
    exact hfields) hend
  obtain ⟨filtered, hfiltered, hparts⟩ := parts_of_compile hq
  have hlimit : 0 ≤ q.limit := by
    rw [hparts]
    exact zero_le_one.trans (rowLimit_mem w.limit).1
  obtain ⟨points, hanswer, hranking⟩ := answer_eq (q := q) (by rw [hparts]; exact hw.ne_days)
    (by rw [hparts]; exact hw.labels_eq) (by rw [hparts]; exact (metricOf_tallies ha).2) hlimit
    c.content (-1)
  have htakes : (c.content.filter fun e ↦ q.conditions.all (·.holds e)) =
      c.content.filter fun e ↦ ∀ f ∈ filters, f.Takes e := List.filter_congr fun e _ ↦ by
    rw [hparts, Bool.eq_iff_iff, all_filterConditions_iff hfiltered, decide_eq_true_iff]
  rw [htakes, hparts] at hranking
  have hrun := run_of_compile (n := 0) hq hc hsite hnull hbound fun hdays ↦ absurd hdays hw.ne_days
  refine ⟨q, points, hq, hrun.trans ?_, hranking⟩
  rw [if_neg hw.ne_days, ChartQuery.rows, hanswer, List.map_map, hparts]
  rfl

end Report

end Footfall
