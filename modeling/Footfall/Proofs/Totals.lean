import Footfall.Proofs.Charting
import Footfall.Proofs.Fronts

/-!
Charts of sums and averages of texts. A text adds what is at its front, so it adds nothing if there
is no digit but zeros there. A text that is no number as a whole may add something.
-/

namespace Footfall.Report

open Numeral

variable {w : Widget} {field : String} {g : StoredEvent → Option String} {e : StoredEvent}

/-- An event has no text in a column, or one that counts as zero. -/
def AddsNothing (g : StoredEvent → Option String) (e : StoredEvent) : Prop :=
  ∀ s ∈ g e, (frontReal s).IsZero

theorem isRepresentable_fieldNumber (field : String) (e : StoredEvent) :
    (fieldNumber field e).IsRepresentable := by
  unfold fieldNumber
  split
  · exact Double.isRepresentable_zero false
  · exact Double.isRepresentable_ofInt _
  · exact isRepresentable_frontReal _

theorem isZero_fieldNumber_iff (hg : (field, g) ∈ textColumns) (e : StoredEvent) :
    (fieldNumber field e).IsZero ↔ AddsNothing g e := by
  rw [fieldNumber, cellOfField_textColumns _ hg, AddsNothing]
  simp only
  cases g e with
  | none => exact iff_of_true (show Double.zero.IsZero from rfl) (by simp)
  | some s => simp [Cell.ofText]

theorem map_fieldNumber_append (field : String) (rows : Table) (e : StoredEvent) (rows' : Table) :
    (rows ++ e :: rows').map (fieldNumber field) =
      rows.map (fieldNumber field) ++ fieldNumber field e :: rows'.map (fieldNumber field) := by
  rw [List.map_append, List.map_cons]

/-- An event leaves every sum unchanged if it adds nothing to any of them, and only then. -/
theorem measure_insert_iff (hg : (field, g) ∈ textColumns) (e : StoredEvent) :
    (∀ rows rows', (Metric.sum field).measure (rows ++ e :: rows') =
      (Metric.sum field).measure (rows ++ rows')) ↔ AddsNothing g e := by
  rw [← isZero_fieldNumber_iff hg]
  constructor
  · intro h
    have halone : Double.sum [fieldNumber field e] = Double.zero := by
      have h := h [] []
      injection h
    exact (Double.add_zero_iff (isRepresentable_fieldNumber field e)).1 halone
  · intro hzero rows rows'
    have hrows : ∀ x ∈ rows.map (fieldNumber field), x.IsRepresentable :=
      List.forall_mem_map.2 fun e _ ↦ isRepresentable_fieldNumber field e
    rw [Metric.measure, Metric.measure, map_fieldNumber_append, List.map_append,
      Double.sum_insert hrows hzero]

/-- The metric of events that add nothing is zero. -/
theorem measure_eq_zero (ha : w.aggregation = .sum ∨ w.aggregation = .average)
    (hg : (w.yField, g) ∈ textColumns) {rows : Table} (hne : rows ≠ [])
    (h : ∀ e ∈ rows, AddsNothing g e) : (metricOf w).measure rows = .real Double.zero := by
  have hsum : Double.sum (rows.map (fieldNumber w.yField)) = Double.zero := by
    apply Double.sum_of_isZero
    exact List.forall_mem_map.2 fun e he ↦ (isZero_fieldNumber_iff hg e).2 (h e he)
  rcases ha with ha | ha
  · rw [metricOf, ha]
    exact congrArg Measure.real hsum
  · rw [metricOf, ha]
    simp only [Metric.measure, hsum]
    rw [Double.zero_div_ofInt (List.length_pos_iff.2 hne)]

theorem limited_sublist {α : Type} (n : Int) (xs : List α) : (Table.limited n xs).Sublist xs := by
  unfold Table.limited
  split
  · exact List.Sublist.refl xs
  · exact List.take_sublist ..

/-- A group of an answer has the labels of one of its events. -/
theorem exists_of_mem_answer {q : ChartQuery} {t : Table} {n : Int} {group : Group}
    (h : group ∈ q.answer t n) : ∃ e rows, e ∈ rows ∧
      group = ⟨q.grouping.labels e, q.metric.measure rows⟩ ∧
      ∀ e' ∈ rows, e' ∈ t ∧ q.conditions.all (·.holds e') = true := by
  have hgroups : group ∈ q.groups t := List.mem_mergeSort.1 ((limited_sublist _ _).subset h)
  have hselect : ∀ e' ∈ q.select t, e' ∈ t ∧ q.conditions.all (·.holds e') = true := by
    intro e' he'
    apply List.mem_filter.1
    unfold ChartQuery.select at he'
    simp only at he'
    split at he'
    · exact List.mem_mergeSort.1 he'
    · exact he'
  obtain ⟨labels, hlabels, rfl⟩ := List.mem_map.1 hgroups
  obtain ⟨e, he, rfl⟩ := List.mem_map.1 (mem_distinct.1 hlabels)
  refine ⟨e, (q.select t).filter fun e' ↦ q.grouping.labels e' == q.grouping.labels e, ?_, rfl, ?_⟩
  · exact List.mem_filter.2 ⟨he, beq_self_eq_true (q.grouping.labels e)⟩
  · exact fun e' he' ↦ hselect e' (List.mem_filter.1 he').1

/-- The answer over a single event. -/
theorem answer_singleton {q : ChartQuery} {e : StoredEvent}
    (hholds : q.conditions.all (·.holds e) = true) (hlimited : q.isLimited = true)
    (hlimit : 0 < q.limit) (n : Int) :
    q.answer [e] n = [⟨q.grouping.labels e, q.metric.measure [e]⟩] := by
  have hselect : q.select [e] = [e] := by
    unfold ChartQuery.select
    simp only [List.filter_singleton, hholds, cond_true, List.mergeSort_singleton, ite_self]
  have hgroups : q.groups [e] = [⟨q.grouping.labels e, q.metric.measure [e]⟩] := by
    simp [ChartQuery.groups, hselect, distinct]
  rw [ChartQuery.answer, hgroups, if_pos hlimited]
  simp only [List.mergeSort_singleton, Table.limited]
  rw [if_neg (by omega), List.take_of_length_le (by simp; omega)]

theorem cellOf_metric (w : Widget) (e : StoredEvent) (v : Value) :
    cellOf (.object ((dataKeys w).zip (((groupingOf w).labels e).map Value.ofText ++ [v])))
      (groupingOf w).metricName = .ok v := by
  by_cases hw : w.chart = .sankey
  · rw [dataKeys, groupingOf, if_pos hw, if_pos hw]
    rfl
  · rw [dataKeys, groupingOf, if_neg hw, if_neg hw]
    split <;> rfl

/-- The data of a chart whose metrics are all zero. -/
theorem shape_of_zeros {rows : List Fields} {groups : List Group}
    (hrows : rows = groups.map (Group.toFields (groupingOf w)))
    (h : ∀ group ∈ groups, ∃ e, group = ⟨(groupingOf w).labels e, .real Double.zero⟩) :
    ∃ data, shape w (rows.map .object) = .ok data ∧
      ∀ d ∈ data, cellOf d (groupingOf w).metricName = .ok (.int 0) := by
  induction groups generalizing rows with
  | nil =>
    rw [hrows]
    exact ⟨[], rfl, by simp⟩
  | cons group groups ih =>
    obtain ⟨⟨e, rfl⟩, hrest⟩ := List.forall_mem_cons.1 h
    obtain ⟨data, hdata, hzeros⟩ := ih rfl hrest
    have hshape := shapeRow_group w e (m := .real Double.zero) (v := .int 0) rfl
    refine ⟨_ :: data, ?_, List.forall_mem_cons.2 ⟨cellOf_metric w e (.int 0), hzeros⟩⟩
    rw [hrows, List.map_cons, List.map_cons, shape, List.mapM_cons, hshape]
    rw [shape] at hdata
    rw [hdata]
    rfl

variable {filters : Option WidgetFilters}

/-- A chart of sums or averages of texts. If all events that the filters take add nothing, all its
metrics are zero. An event leaves sums unchanged exactly if it adds nothing. A text adds nothing if
there is no digit but zeros at its front, and otherwise only if the power of ten there is too
small. -/
theorem chart_of_texts (hfields : ∀ field ∈ groupFields w, IsGood Backend.columns field)
    (hg : (w.yField, g) ∈ textColumns) (ha : w.aggregation = .sum ∨ w.aggregation = .average)
    {c : Connection} (hc : c.IsSound) (hsite : ∀ e ∈ c.content, e.site = c.store.site)
    (hnull : ∀ f ∈ filters, ∀ p ∈ f.texts, ∀ s, p.1 = some s → HasNoNull s)
    (hend : ∀ f ∈ filters, ¬RunsOut f) {limit bound : Value}
    (hbound : rowBound limit c.store.maxRows = .ok bound) {n : Int} (hn : bound.toWhole = .ok n)
    (hfits : fitsTable n = true) :
    (∃ q rows, compile w Backend.columns filters (.text "sqlite") none = .ok q ∧
      (c.run (.chart q) limit).1 = .ok rows ∧
      ((∀ e ∈ c.content, (∀ f ∈ filters, f.Takes e) → AddsNothing g e) →
        ∃ data, shape w (rows.map .object) = .ok data ∧
          ∀ d ∈ data, cellOf d (groupingOf w).metricName = .ok (.int 0))) ∧
    (∀ e, (∀ rows rows', (Metric.sum w.yField).measure (rows ++ e :: rows') =
      (Metric.sum w.yField).measure (rows ++ rows')) ↔ AddsNothing g e) ∧
    ∀ s, ((∀ d ∈ frontDigits s, d = '0') → (frontReal s).IsZero) ∧
      ((frontReal s).IsZero → (∀ d ∈ frontDigits s, d = '0') ∨ frontPower s < -307) := by
  have hmetric : metricFields w = [w.yField] := by
    rcases ha with ha | ha <;> rw [metricFields, ha]
  have hgood : ∀ field ∈ referencedFields w, IsGood Backend.columns field := by
    rw [referencedFields, hmetric]
    exact List.forall_mem_append.2
      ⟨hfields, List.forall_mem_singleton.2 (textColumns_spec _ hg).1⟩
  obtain ⟨q, hq⟩ := exists_query hgood hend
  obtain ⟨filtered, hfiltered, hparts⟩ := parts_of_compile hq
  have hrun := run_of_compile hq hc hsite hnull hbound fun _ ↦ ⟨hn, hfits⟩
  generalize (if groupingOf w = .days then n else -1) = m at hrun
  refine ⟨⟨q, _, hq, hrun, fun hall ↦ ?_⟩, measure_insert_iff hg, fun s ↦
    ⟨isZero_frontReal, of_isZero_frontReal⟩⟩
  have hgrouping : q.grouping = groupingOf w := by rw [hparts]
  have hrows : q.rows c.content m =
      (q.answer c.content m).map (Group.toFields (groupingOf w)) := by
    rw [ChartQuery.rows, hgrouping]
  refine shape_of_zeros hrows fun group hgroup ↦ ?_
  obtain ⟨e, rows, he, hgroup, hmem⟩ := exists_of_mem_answer hgroup
  refine ⟨e, ?_⟩
  rw [hgroup, hgrouping, hparts]
  congr 1
  refine measure_eq_zero ha hg (List.ne_nil_of_mem he) fun e' he' ↦ ?_
  obtain ⟨hcontent, hholds⟩ := hmem e' he'
  rw [hparts] at hholds
  exact hall e' hcontent ((all_filterConditions_iff hfiltered e').1 hholds)

/-- A store with a view that has a text as its postal code. -/
def postalStore (postal : String) : Connection :=
  ⟨{ site := 1 }, some [{ Backend.viewRow 1 1 10 with context := { postal := some postal } }]⟩

/-- The averages of each day over a postal code without a digit at its front. -/
theorem chart_of_texts_postal :
    let w : Widget := { xField := "created_at", yField := "postal", aggregation := .average }
    ∃ q rows data, compile w Backend.columns none (.text "sqlite") none = .ok q ∧
      ((postalStore "none 12").run (.chart q) .null).1 = .ok rows ∧
      (∀ e ∈ (postalStore "none 12").content, AddsNothing (·.context.postal) e) ∧
      shape w (rows.map .object) = .ok data ∧ ∀ d ∈ data, cellOf d "y" = .ok (.int 0) := by
  intro w
  have hg : (w.yField, fun e : StoredEvent ↦ e.context.postal) ∈ textColumns := by
    simp [textColumns, w]
  have htime : IsGood Backend.columns "created_at" :=
    ⟨(isIdentifier_iff "created_at").1 rfl, by decide⟩
  have hbound : rowBound .null (postalStore "none 12").store.maxRows = .ok (.int 500) := rfl
  obtain ⟨⟨q, rows, hq, hrun, hzeros⟩, -, htexts⟩ := chart_of_texts (w := w)
    (List.forall_mem_singleton.2 htime) hg (.inr rfl) (c := postalStore "none 12") (fun _ ↦ rfl)
    (by decide) noFilters_hasNoNull (by simp) hbound rfl (by decide)
  have hadds : ∀ e ∈ (postalStore "none 12").content, AddsNothing (·.context.postal) e := by
    intro e he s hs
    obtain rfl := List.mem_singleton.1 he
    cases hs
    have hfront : frontDigits "none 12" = [] := rfl
    exact (htexts "none 12").1 (by simp [hfront])
  obtain ⟨data, hdata, hall⟩ := hzeros fun e he _ ↦ hadds e he
  exact ⟨q, rows, data, hq, hrun, hadds, hdata, hall⟩

/-- A text that is a number as a whole: digits, with a minus before them or not, and with a point
and more digits after them or not. -/
def IsNumeral (s : String) : Prop :=
  ∃ sign whole fraction, s.toList = sign ++ whole ++ fraction ∧ (sign = [] ∨ sign = ['-']) ∧
    (whole ≠ [] ∧ ∀ c ∈ whole, c.isDigit = true) ∧
    (fraction = [] ∨ ∃ ds, fraction = '.' :: ds ∧ ds ≠ [] ∧ ∀ c ∈ ds, c.isDigit = true)

theorem IsNumeral.mem {s : String} (h : IsNumeral s) :
    ∀ c ∈ s.toList, c = '-' ∨ c = '.' ∨ c.isDigit = true := by
  obtain ⟨sign, whole, fraction, hs, hsign, ⟨-, hwhole⟩, hfraction⟩ := h
  rw [hs]
  intro c hc
  rcases List.mem_append.1 hc with hc | hc
  · rcases List.mem_append.1 hc with hc | hc
    · rcases hsign with rfl | rfl
      · cases hc
      · exact .inl (List.mem_singleton.1 hc)
    · exact .inr (.inr (hwhole c hc))
  · rcases hfraction with rfl | ⟨ds, rfl, -, hds⟩
    · cases hc
    · rcases List.mem_cons.1 hc with rfl | hc
      · exact .inr (.inl rfl)
      · exact .inr (.inr (hds c hc))

/-- The only postal code is no number, and the chart of the sums shows the number at its front. -/
theorem postalStore_breaks :
    let w : Widget := { xField := "event", yField := "postal", aggregation := .sum }
    (∀ e ∈ (postalStore "12ab").content, ∀ s ∈ e.context.postal, ¬IsNumeral s) ∧
      ∃ q rows, compile w Backend.columns none (.text "sqlite") none = .ok q ∧
        ((postalStore "12ab").run (.chart q) .null).1 = .ok rows ∧
        shape w (rows.map .object) = .ok [.object [("x", .text "view"), ("y", .int 12)]] := by
  intro w
  constructor
  · intro e he s hs hnumeral
    obtain rfl := List.mem_singleton.1 he
    cases hs
    exact absurd (hnumeral.mem 'a' (by decide)) (by decide)
  · have hgood : ∀ field ∈ referencedFields w, IsGood Backend.columns field := by
      rintro field (_ | ⟨_, _ | ⟨_, ⟨⟩⟩⟩)
      · exact ⟨(isIdentifier_iff "event").1 rfl, by decide⟩
      · exact ⟨(isIdentifier_iff "postal").1 rfl, by decide⟩
    obtain ⟨q, hq⟩ : ∃ q, compile w Backend.columns none (.text "sqlite") none = .ok q :=
      exists_query hgood (by simp)
    obtain ⟨filtered, hfiltered, hparts⟩ := parts_of_compile hq
    cases hfiltered
    have hbound : rowBound .null (postalStore "12ab").store.maxRows = .ok (.int 500) := rfl
    have hrun := run_of_compile (n := 0) hq (c := postalStore "12ab") (fun _ ↦ rfl) (by decide)
      noFilters_hasNoNull hbound fun hdays ↦ absurd hdays (by decide)
    refine ⟨q, _, hq, hrun, ?_⟩
    rw [ChartQuery.rows, postalStore, Connection.content, Option.getD_some,
      answer_singleton (by rw [hparts]; rfl) (by rw [hparts]; decide) (by rw [hparts]; decide), hparts]
    have hsum : Double.sum [frontReal "12ab"] = .finite false 6755399441055744 (-49) := by
      decide +kernel
    have hmetric : metricNumber (Measure.real (Double.sum [frontReal "12ab"])).toValue =
        .ok (.int 12) := by
      rw [hsum]
      rfl
    have hshape := shapeRow_group w
      { Backend.viewRow 1 1 10 with context := { postal := some "12ab" } } hmetric
    exact congrArg (· >>= fun v ↦ Except.ok [v]) hshape

end Footfall.Report
