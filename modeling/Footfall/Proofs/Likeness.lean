import Footfall.Store.Aggregate
import Mathlib.Data.List.Basic

/-!
Tables that are alike: they have the same rows in the same order, under other numbers. What is read
from them differs in the numbers only.
-/

namespace Footfall

/-- What an event says beside its number. -/
def StoredEvent.withoutId (e : StoredEvent) : StoredEvent := { e with id := 0 }

def EventPage.withoutIds (p : EventPage) : EventPage :=
  { p with events := p.events.map (·.map StoredEvent.withoutId) }

def DashboardRows.withoutIds (d : DashboardRows) : DashboardRows :=
  { d with rows := d.rows.map StoredEvent.withoutId }

namespace Conditions

variable {cs cs' : Conditions}

/-- The number of a row does not matter to the conditions. -/
def IgnoreIds (cs : Conditions) : Prop := ∀ c ∈ cs, ∀ e : StoredEvent, c e.withoutId = c e

theorem IgnoreIds.append (h : cs.IgnoreIds) (h' : cs'.IgnoreIds) : (cs ++ cs').IgnoreIds :=
  fun c hc ↦ (List.mem_append.1 hc).elim (h c) (h' c)

theorem IgnoreIds.all_withoutId (h : cs.IgnoreIds) (e : StoredEvent) :
    cs.all (· e.withoutId) = cs.all (· e) := by
  rw [Bool.eq_iff_iff, List.all_eq_true, List.all_eq_true]
  exact forall₂_congr fun c hc ↦ by rw [h c hc]

theorem ignoreIds_range (r : DateRange) : r.conditions.IgnoreIds := by
  intro c hc e
  simp only [DateRange.conditions, List.mem_append, Option.mem_toList, Option.map_eq_some_iff] at hc
  rcases hc with ⟨a, -, rfl⟩ | ⟨b, -, rfl⟩ <;> rfl

theorem ignoreIds_text (filter : Option String) {field : StoredEvent → Option String}
    (hfield : ∀ e : StoredEvent, field e.withoutId = field e) :
    (textConditions filter field).IgnoreIds := by
  intro c hc e
  unfold textConditions at hc
  split at hc
  · simp at hc
  · split at hc
    · simp at hc
    · obtain rfl := List.mem_singleton.1 hc
      simp only [hfield]

theorem ignoreIds_filters (f : EventFilters) : f.conditions.IgnoreIds :=
  ((((ignoreIds_range f.range).append (ignoreIds_text _ fun _ ↦ rfl)).append
    (ignoreIds_text _ fun _ ↦ rfl)).append (ignoreIds_text _ fun _ ↦ rfl)).append
    (ignoreIds_text _ fun _ ↦ rfl)

theorem ignoreIds_rangeOrNone (r : Option DateRange) : (Table.rangeConditions r).IgnoreIds := by
  cases r with
  | none => simp [IgnoreIds, Table.rangeConditions]
  | some r => exact ignoreIds_range r

theorem ignoreIds_summary (o : SummaryOptions) : (Table.summaryConditions o).IgnoreIds := by
  refine (ignoreIds_rangeOrNone o.range).append fun c hc e ↦ ?_
  split at hc
  · simp at hc
  · split at hc
    · simp at hc
    · obtain rfl := List.mem_singleton.1 hc
      rfl

end Conditions

theorem StoredEvent.accepts_withoutId (f : EventFilters) (e : StoredEvent) :
    f.accepts e.withoutId = f.accepts e := (Conditions.ignoreIds_filters f).all_withoutId e

namespace Table

/-- The rows of both are the same but for their numbers, which grow in both. -/
structure Alike (t u : Table) : Prop where
  same : t.map StoredEvent.withoutId = u.map StoredEvent.withoutId
  left : t.Pairwise (·.id < ·.id)
  right : u.Pairwise (·.id < ·.id)

namespace Alike

variable {t u : Table}

theorem length_eq (h : Alike t u) : t.length = u.length := by
  simpa using congrArg List.length h.same

/-- Each row beside the one that it is like. -/
theorem exists_pairs (h : Alike t u) : ∃ z : List (StoredEvent × StoredEvent),
    z.map Prod.fst = t ∧ z.map Prod.snd = u ∧ (∀ p ∈ z, p.1.withoutId = p.2.withoutId) ∧
      ∀ p ∈ z, ∀ q ∈ z, p.1.id ≤ q.1.id ↔ p.2.id ≤ q.2.id := by
  have hfst : (t.zip u).map Prod.fst = t := List.map_fst_zip (Nat.le_of_eq h.length_eq)
  have hsnd : (t.zip u).map Prod.snd = u := List.map_snd_zip (Nat.le_of_eq h.length_eq.symm)
  have hleft : (t.zip u).Pairwise fun p q ↦ p.1.id < q.1.id := by
    rw [← List.pairwise_map (f := Prod.fst) (R := fun a b : StoredEvent ↦ a.id < b.id), hfst]
    exact h.left
  have hright : (t.zip u).Pairwise fun p q ↦ p.2.id < q.2.id := by
    rw [← List.pairwise_map (f := Prod.snd) (R := fun a b : StoredEvent ↦ a.id < b.id), hsnd]
    exact h.right
  refine ⟨t.zip u, hfst, hsnd, fun p hp ↦ ?_, fun p hp q hq ↦ ?_⟩
  · have hsame : (t.zip u).map (StoredEvent.withoutId ∘ Prod.fst) =
        (t.zip u).map (StoredEvent.withoutId ∘ Prod.snd) := by
      rw [← List.map_map, hfst, ← List.map_map, hsnd]
      exact h.same
    exact List.map_inj_left.1 hsame p hp
  · -- Of two different pairs, one stands before the other and has the smaller numbers.
    refine List.Pairwise.forall_of_forall_of_flip
      (R := fun p q : StoredEvent × StoredEvent ↦ p.1.id ≤ q.1.id ↔ p.2.id ≤ q.2.id)
      (fun p _ ↦ by simp) ((hleft.and hright).imp ?_) ((hleft.and hright).imp ?_) hp hq
    · intro p q ⟨h1, h2⟩
      exact ⟨fun _ ↦ Int.le_of_lt h2, fun _ ↦ Int.le_of_lt h1⟩
    · intro p q ⟨h1, h2⟩
      exact ⟨fun h ↦ absurd h1 (Int.not_lt.2 h), fun h ↦ absurd h2 (Int.not_lt.2 h)⟩

theorem matching (h : Alike t u) (f : EventFilters) :
    (t.matching f).map StoredEvent.withoutId = (u.matching f).map StoredEvent.withoutId := by
  obtain ⟨z, rfl, rfl, hsame, hids⟩ := h.exists_pairs
  have haccepts : z.filter (f.accepts ∘ Prod.fst) = z.filter (f.accepts ∘ Prod.snd) := by
    refine List.filter_congr fun p hp ↦ ?_
    rw [Function.comp_apply, Function.comp_apply, ← StoredEvent.accepts_withoutId, hsame p hp,
      StoredEvent.accepts_withoutId]
  have hsub : ∀ p ∈ z.filter (f.accepts ∘ Prod.snd), p ∈ z := fun p hp ↦ (List.mem_filter.1 hp).1
  have hnewer : ∀ p ∈ z.filter (f.accepts ∘ Prod.snd), ∀ q ∈ z.filter (f.accepts ∘ Prod.snd),
      isNewer p.1 q.1 = isNewer p.2 q.2 := by
    intro p hp q hq
    have htime : ∀ p ∈ z, p.1.createdAt = p.2.createdAt := fun p hp ↦
      show p.1.withoutId.createdAt = p.2.withoutId.createdAt from
        congrArg StoredEvent.createdAt (hsame p hp)
    simp only [isNewer, htime p (hsub p hp), htime q (hsub q hq),
      hids q (hsub q hq) p (hsub p hp)]
  rw [matching_eq, matching_eq, List.filter_map, List.filter_map, haccepts,
    ← List.map_mergeSort (r := fun p q ↦ isNewer p.1 q.1) fun p _ q _ ↦ rfl,
    ← List.map_mergeSort hnewer, List.map_map, List.map_map]
  refine List.map_congr_left fun p hp ↦ hsame p ?_
  exact hsub p (List.mem_mergeSort.1 hp)

theorem pageOf (h : Alike t u) (f : EventFilters) :
    (Table.pageOf f.offset f.limit (t.matching f)).map StoredEvent.withoutId =
      (Table.pageOf f.offset f.limit (u.matching f)).map StoredEvent.withoutId := by
  have hmap (xs : List StoredEvent) : (Table.pageOf f.offset f.limit xs).map StoredEvent.withoutId =
      Table.pageOf f.offset f.limit (xs.map StoredEvent.withoutId) := by
    unfold Table.pageOf limited
    split <;> simp [List.map_drop, List.map_take]
  rw [hmap, hmap, h.matching f]

theorem list (h : Alike t u) (f : EventFilters) :
    (t.list f).map EventPage.withoutIds = (u.list f).map EventPage.withoutIds := by
  have hlength : (t.matching f).length = (u.matching f).length := by
    simpa using congrArg List.length (h.matching f)
  rw [list_eq, list_eq]
  split
  · simp [Except.map, EventPage.withoutIds, h.pageOf f, hlength, h.length_eq]
  · rfl

end Alike

theorem meeting_map_withoutId (t : Table) {cs : Conditions} (h : cs.IgnoreIds) :
    Table.meeting (t.map StoredEvent.withoutId) cs = (t.meeting cs).map StoredEvent.withoutId := by
  rw [meeting, List.filter_map]
  exact congrArg _ (List.filter_congr fun e _ ↦ h.all_withoutId e)

theorem count_map_withoutId (t : Table) {cs : Conditions} (h : cs.IgnoreIds) :
    Table.count (t.map StoredEvent.withoutId) cs = t.count cs := by
  simp only [count, meeting_map_withoutId t h, List.length_map]

theorem topValues_map_withoutId (t : Table) (field : StoredEvent → Option String)
    (hfield : ∀ e : StoredEvent, field e.withoutId = field e) {cs : Conditions}
    (h : cs.IgnoreIds) :
    Table.topValues (t.map StoredEvent.withoutId) field cs = t.topValues field cs := by
  have : field ∘ StoredEvent.withoutId = field := funext hfield
  simp only [topValues, meeting_map_withoutId t h, List.map_map, this]

theorem stats_map_withoutId (t : Table) (r : Option DateRange) :
    Table.stats (t.map StoredEvent.withoutId) r = t.stats r := by
  have h := Conditions.ignoreIds_rangeOrNone r
  simp only [stats, List.nil_append, count_map_withoutId t h]
  congr 1 <;> exact topValues_map_withoutId _ _ (fun _ ↦ rfl) h

theorem names_map_withoutId (t : Table) {cs : Conditions} (h : cs.IgnoreIds) :
    Table.names (t.map StoredEvent.withoutId) cs = t.names cs := by
  have hname : (fun e : StoredEvent ↦ e.event) ∘ StoredEvent.withoutId = (·.event) := rfl
  simp only [names, meeting_map_withoutId t h, List.map_map, hname]

theorem summaryRows_map_withoutId (t : Table) {cs : Conditions} (h : cs.IgnoreIds) :
    Table.summaryRows (t.map StoredEvent.withoutId) cs = t.summaryRows cs := by
  simp only [summaryRows, names_map_withoutId t h, meeting_map_withoutId t h]
  refine List.map_congr_left fun name _ ↦ ?_
  rw [List.filter_map]
  simp only [summaryRow, List.map_map, List.length_map]
  rfl

theorem summary_map_withoutId (t : Table) (o : SummaryOptions) :
    Table.summary (t.map StoredEvent.withoutId) o = t.summary o := by
  have h := Conditions.ignoreIds_summary o
  simp only [summary, List.nil_append, summaryRows_map_withoutId t h, names_map_withoutId t h,
    count_map_withoutId t h]

theorem series_map_withoutId (t : Table) (r : Option DateRange) (g : Granularity)
    (byEvent : Value) : Table.series (t.map StoredEvent.withoutId) r g byEvent =
      t.series r g byEvent := by
  simp only [series, List.nil_append,
    meeting_map_withoutId t (Conditions.ignoreIds_rangeOrNone r), List.map_map]
  rfl

namespace Alike

variable {t u : Table}

theorem stats (h : Alike t u) (r : Option DateRange) : t.stats r = u.stats r := by
  rw [← stats_map_withoutId, h.same, stats_map_withoutId]

theorem summary (h : Alike t u) (o : SummaryOptions) : t.summary o = u.summary o := by
  rw [← summary_map_withoutId, h.same, summary_map_withoutId]

theorem series (h : Alike t u) (r : Option DateRange) (g : Granularity) (byEvent : Value) :
    t.series r g byEvent = u.series r g byEvent := by
  rw [← series_map_withoutId, h.same, series_map_withoutId]

end Alike

@[simp] theorem meeting_of_nil (cs : Conditions) : Table.meeting [] cs = [] := rfl

@[simp] theorem count_of_nil (cs : Conditions) : Table.count [] cs = 0 := rfl

/-- A page of no rows is empty, unless it does not fit. -/
theorem list_nil (f : EventFilters) :
    Table.list [] f = .ok (.empty f) ∨ Table.list [] f = .error .hugeForStore := by
  rw [list_eq]
  split
  · exact .inl (by simp [matching_eq, Table.pageOf, limited, EventPage.empty])
  · exact .inr rfl

theorem stats_nil (r : Option DateRange) : Table.stats [] r = {} := by
  simp [stats, topValues, distinct]

theorem summary_nil (o : SummaryOptions) :
    Table.summary [] o = .ok (.empty o) ∨ Table.summary [] o = .error .hugeForStore := by
  unfold Table.summary
  split
  · exact .inl (by simp [summaryRows, names, distinct, Table.pageOf, limited, Summary.empty])
  · exact .inr rfl

theorem series_nil (r : Option DateRange) (g : Granularity) (byEvent : Value) :
    Table.series [] r g byEvent = TimeSeries.of [] g byEvent := by
  simp [series, distinct]

end Table

end Footfall
