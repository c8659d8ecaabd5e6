import Footfall.Proofs.Charting

/-!
Events without a value in a chart. A missing text or number is counted under the label of the
unknown. A missing map is stored as the text of null, and is counted under that text.
-/

namespace Footfall

/-- Whether the values of a column are maps. -/
def Column.isMap (c : Column) : Bool := c.declaration == "JSON"

namespace StoredEvent

variable {e : StoredEvent} {c : Column}

/-- An event as it is read back has no value for a column. -/
def Lacks (e : StoredEvent) (c : Column) : Prop := Value.lookup e.toFields c.name = some .null

/-- The text under which an event without a value for a column is counted. -/
theorem textOf_of_lacks (h : e.Lacks c) : e.textOf c = if c.isMap then some "null" else none := by
  have htext {o : Option String} (ho : some (Value.ofText o) = some .null) :
      (Cell.ofText o).asText = none := by
    cases o with
    | none => rfl
    | some s => cases ho
  have hwhole {o : Option Int} (ho : some (Value.ofWhole o) = some .null) :
      (Cell.ofWhole o).asText = none := by
    cases o with
    | none => rfl
    | some n => cases ho
  have hmap {o : Option Fields} (ho : some (Value.ofOption .object o) = some .null) :
      (Cell.ofMap o).asText = some "null" := by
    cases o with
    | none => rfl
    | some m => cases ho
  cases c
  case id | site | tag | event | createdAt | updatedAt => cases h
  case team | screenWidth | screenHeight => exact hwhole h
  case queryParams | customData | botData => exact hmap h
  all_goals exact htext h

end StoredEvent

namespace Report

/-- The label of an event under a column. -/
def columnLabel (e : StoredEvent) (c : Column) : String := (e.textOf c).getD unknownLabel

/-- The label of an event under a column that it has no value for. -/
theorem columnLabel_of_lacks {e : StoredEvent} {c : Column} (h : e.Lacks c) :
    columnLabel e c = if c.isMap then "null" else "Unknown" := by
  rw [columnLabel, StoredEvent.textOf_of_lacks h]
  split <;> rfl

theorem isGood_name (c : Column) : IsGood Backend.columns c.name := by
  refine ⟨(isIdentifier_iff _).1 ?_, List.mem_map_of_mem c.mem_all⟩
  cases c <;> decide

theorem name_injective {c c' : Column} (h : c.name = c'.name) : c = c' := by
  apply Option.some.inj
  rw [← Column.ofName?_name c, h, Column.ofName?_name]

theorem labelsBy_columnLabel {w : Widget} {cs : List Column}
    (hfields : groupFields w = cs.map Column.name) (htime : .createdAt ∉ cs) :
    LabelsBy w fun e ↦ cs.map (columnLabel e) := by
  have htime' : timeField ∉ groupFields w := by
    rw [hfields]
    intro hmem
    obtain ⟨c, hc, hname⟩ := List.mem_map.1 hmem
    have hcreated : c = .createdAt := name_injective hname
    exact htime (hcreated ▸ hc)
  have hlabels : (fun e ↦ (groupFields w).map (labelOf · e)) = fun e ↦ cs.map (columnLabel e) := by
    funext e
    rw [hfields, List.map_map]
    apply List.map_congr_left
    intro c _
    rw [Function.comp_apply, labelOf, fieldText_eq (Column.ofName?_name c), columnLabel]
  exact hlabels ▸ labelsBy_groupFields htime'

variable {w : Widget} {cs : List Column} {filters : Option WidgetFilters}

/-- The chart of a widget that counts events under columns is the ranking of the events that the
filters take by their labels. An event without a value for a column has the label of the unknown
there, but that of null if the column is one of maps. -/
theorem chart_of_lacking (hfields : groupFields w = cs.map Column.name) (htime : .createdAt ∉ cs)
    (ha : w.aggregation = .count) {c : Connection} (hc : c.IsSound)
    (hsite : ∀ e ∈ c.content, e.site = c.store.site)
    (hnull : ∀ f ∈ filters, ∀ p ∈ f.texts, ∀ s, p.1 = some s → HasNoNull s)
    (hend : ∀ f ∈ filters, ¬RunsOut f) {limit bound : Value}
    (hbound : rowBound limit c.store.maxRows = .ok bound) :
    (∃ q rows points, compile w Backend.columns filters (.text "sqlite") none = .ok q ∧
      (c.run (.chart q) limit).1 = .ok rows ∧
      (c.content.length < 2 ^ 53 →
        shape w (rows.map .object) = .ok (points.map (Point.toValue w))) ∧
      IsRanking (fun e ↦ cs.map (columnLabel e)) .count
        (c.content.filter fun e ↦ ∀ f ∈ filters, f.Takes e) (rowLimit w.limit).toNat points) ∧
    ∀ e ∈ c.content, ∀ col ∈ cs, e.Lacks col →
      columnLabel e col = if col.isMap then "null" else "Unknown" := by
  have hlabels := labelsBy_columnLabel hfields htime
  have hgood : ∀ field ∈ groupFields w, IsGood Backend.columns field := by
    rw [hfields]
    exact List.forall_mem_map.2 fun col _ ↦ isGood_name col
  obtain ⟨q, points, hq, hrun, hranking⟩ :=
    chart_of_labels hlabels hgood (.inl ha) hc hsite hnull hend hbound
  refine ⟨⟨q, _, points, hq, hrun, fun hsize ↦ ?_, ha ▸ hranking⟩, ?_⟩
  · exact shape_points hlabels ((List.length_filter_le _ _).trans_lt hsize) hranking
  · intro e _ col _ hlacks
    exact columnLabel_of_lacks hlacks

/-- A store with a view that has no values but those that are required. -/
def bareStore : Connection := ⟨{ site := 1 }, some [Backend.viewRow 1 1 10]⟩

/-- A chart from country to the custom data of the view. -/
theorem chart_of_lacking_bareStore :
    let w : Widget := { chart := .sankey, sourceField := "country", targetField := "custom_data" }
    ∃ q rows points, compile w Backend.columns none (.text "sqlite") none = .ok q ∧
      (bareStore.run (.chart q) .null).1 = .ok rows ∧
      shape w (rows.map .object) = .ok (points.map (Point.toValue w)) ∧
      IsRanking (fun e ↦ [Column.country, .customData].map (columnLabel e)) .count
        bareStore.content 25 points ∧
      ∀ e ∈ bareStore.content, ∀ c ∈ [Column.country, .customData], e.Lacks c ∧
        columnLabel e c = if c.isMap then "null" else "Unknown" := by
  intro w
  have hfields : groupFields w = [Column.country, .customData].map Column.name := rfl
  have hbound : rowBound .null bareStore.store.maxRows = .ok (.int 500) := rfl
  obtain ⟨⟨q, rows, points, hq, hrun, hdata, hranking⟩, hlabels⟩ :=
    chart_of_lacking hfields (by decide) rfl (c := bareStore) (fun _ ↦ rfl) (by decide)
      noFilters_hasNoNull (by simp) hbound
  have hlacks : ∀ e ∈ bareStore.content, ∀ c ∈ [Column.country, .customData], e.Lacks c := by
    intro e he c hc
    obtain rfl := List.mem_singleton.1 he
    rcases List.mem_pair.1 hc with rfl | rfl
    · rfl
    · rfl
  have hall : (bareStore.content.filter fun e ↦
      ∀ f ∈ (none : Option WidgetFilters), f.Takes e) = bareStore.content := by
    simp
  rw [hall] at hranking
  exact ⟨q, rows, points, hq, hrun, hdata (by decide), hranking, fun e he c hc ↦
    ⟨hlacks e he c hc, hlabels e he c hc (hlacks e he c hc)⟩⟩

/-- The view has no map of its query, and a chart of these maps does not count it as unknown. -/
theorem bareStore_breaks :
    ∃ q rows, compile { xField := "query_params" } Backend.columns none (.text "sqlite") none =
        .ok q ∧
      (∀ e ∈ bareStore.content, e.Lacks .queryParams) ∧
      (bareStore.run (.chart q) .null).1 = .ok rows ∧
      shape { xField := "query_params" } (rows.map .object) =
        .ok [.object [("x", .text "null"), ("y", .int 1)]] := by
  have hlabels : LabelsBy { xField := "query_params" } fun e ↦
      [Column.queryParams].map (columnLabel e) := labelsBy_columnLabel rfl (by decide)
  have hbound : rowBound .null bareStore.store.maxRows = .ok (.int 500) := rfl
  obtain ⟨q, points, hq, hrun, hranking⟩ := chart_of_labels hlabels
    (List.forall_mem_singleton.2 (isGood_name .queryParams)) (.inl rfl) (c := bareStore)
    (fun _ ↦ rfl) (by decide) noFilters_hasNoNull (by simp) hbound
  have hlacks : ∀ e ∈ bareStore.content, e.Lacks .queryParams := by
    intro e he
    obtain rfl := List.mem_singleton.1 he
    rfl
  have hdata := shape_points hlabels (by decide) hranking
  have hall : (bareStore.content.filter fun e ↦
      ∀ f ∈ (none : Option WidgetFilters), f.Takes e) = [Backend.viewRow 1 1 10] := by
    simp [bareStore, Connection.content]
  rw [hall] at hranking
  obtain rfl : points = [⟨["null"], 1⟩] := hranking.eq_of_singleton (by decide)
  exact ⟨q, _, hq, hlacks, hrun, hdata⟩

end Report

end Footfall
