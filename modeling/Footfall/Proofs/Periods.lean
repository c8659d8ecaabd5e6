import Footfall.Proofs.Labels
import Footfall.Proofs.TopValues

/-!
Time series as a division of events by time. Each event counts for one point, the points come in the
order of time, and their counts are the numbers of the events that count for them; divided by name, the
points of each name are such a division of its events. Two events count for one point if they lie in
the same hour, day, week or month, where weeks end with the year.
-/

namespace Footfall

namespace SeriesPoint

variable {g : Granularity} {p q : SeriesPoint} {a b e : StoredEvent}

/-- An event counts for the point of its label, and of its name if the point has one. -/
def Counts (p : SeriesPoint) (g : Granularity) (e : StoredEvent) : Prop :=
  g.storedLabel e.createdAt = some p.label ∧ (p.event = none ∨ p.event = some e.event)

instance (p : SeriesPoint) (g : Granularity) : DecidablePred (p.Counts g) := fun _ ↦
  inferInstanceAs (Decidable (_ ∧ _))

/-- Points come in the order of their labels, and those of one label in that of their names. -/
def Precedes (p q : SeriesPoint) : Prop :=
  p.label < q.label ∨ p.label = q.label ∧ ValueBefore p.event q.event

/-- Labels that are formatted as they are come in the order of time. -/
theorem Counts.lt (ha : p.Counts g a) (hb : q.Counts g b) (hformat : g.Formats a.createdAt)
    (hformat' : g.Formats b.createdAt) (h : p.label < q.label) : a.createdAt < b.createdAt := by
  rw [← Option.some.inj (hformat.symm.trans ha.1), ← Option.some.inj (hformat'.symm.trans hb.1),
    Granularity.label_lt_iff hformat.lt hformat'.lt] at h
  exact Granularity.lt_of_numbers_lt hformat.lt hformat'.lt h

end SeriesPoint

/-- Points that divide events by time. -/
structure IsTimeline (g : Granularity) (events : List StoredEvent) (points : List SeriesPoint) :
    Prop where
  labels : points.Pairwise fun p q ↦ p.label < q.label
  positive : ∀ p ∈ points, 0 < p.count
  count_eq : ∀ p ∈ points, p.count = events.countP (p.Counts g ·)
  existsUnique : ∀ e ∈ events, ∃! p, p ∈ points ∧ p.Counts g e
  sum_eq : (points.map (·.count)).sum = events.length
  earlier : points.Pairwise fun p q ↦ ∀ a ∈ events, p.Counts g a → ∀ b ∈ events, q.Counts g b →
    a.createdAt < b.createdAt

theorem not_valueBefore_self (v : Option String) : ¬ValueBefore v v := by
  cases v with
  | none => exact id
  | some s => exact lt_irrefl s

namespace Table

variable {t : Table} {r : Option DateRange} {g : Granularity} {byEvent : Bool}
  {p q : SeriesPoint} {a e : StoredEvent}

theorem comparePoints_eq_lt_iff : comparePoints p q = .lt ↔ p.Precedes q := by
  rw [comparePoints, Ordering.then_eq_lt, compareValues_eq_lt_iff, compare_lt_iff_lt,
    compare_eq_iff_eq]
  rfl

theorem precedes_of_isLE_comparePoints (h : (comparePoints p q).isLE = true)
    (hne : (p.label, p.event) ≠ (q.label, q.event)) : p.Precedes q := by
  rcases Ordering.isLE_iff_eq_lt_or_eq_eq.1 h with hlt | heq
  · exact comparePoints_eq_lt_iff.1 hlt
  · obtain ⟨hlabel, hevent⟩ := Ordering.then_eq_eq.1 heq
    exact absurd (Prod.ext (compare_eq_iff_eq.1 hlabel) (eq_of_compareValues hevent)) hne

/-- The key of a row with a bucket is not changed by what a point keeps of it. -/
theorem getD_pointKey (byEvent : Bool) (h : e.createdAt.IsBucketed) :
    (some ((pointKey g byEvent e).1.getD ""), (pointKey g byEvent e).2) = pointKey g byEvent e := by
  obtain ⟨label, hlabel⟩ := Option.isSome_iff_exists.1 ((isSome_storedLabel g e.createdAt).2 h)
  simp [pointKey, hlabel]

/-- A point stands for the rows of one key. -/
theorem exists_key_of_mem_points (hbucketed : ∀ e ∈ t.within r, e.createdAt.IsBucketed)
    (hp : p ∈ t.points r g byEvent) : ∃ e ∈ t.within r,
      pointKey g byEvent e = (some p.label, p.event) ∧
        p.count = (t.keys r g byEvent).count (pointKey g byEvent e) := by
  obtain ⟨k, hk, rfl⟩ := List.mem_map.1 (List.mem_mergeSort.1 hp)
  obtain ⟨e, he, rfl⟩ := List.mem_map.1 (mem_distinct.1 hk)
  exact ⟨e, he, (getD_pointKey byEvent (hbucketed e he)).symm, rfl⟩

theorem exists_point_of_mem (byEvent : Bool) (hbucketed : ∀ e ∈ t.within r, e.createdAt.IsBucketed)
    (he : e ∈ t.within r) :
    ∃ p ∈ t.points r g byEvent, pointKey g byEvent e = (some p.label, p.event) := by
  have hkey : pointKey g byEvent e ∈ distinct (t.keys r g byEvent) :=
    mem_distinct.2 (List.mem_map_of_mem he)
  exact ⟨_, List.mem_mergeSort.2 (List.mem_map_of_mem hkey),
    (getD_pointKey byEvent (hbucketed e he)).symm⟩

/-- Points have names just when the series is divided by name. -/
theorem isSome_event_of_mem_points (hbucketed : ∀ e ∈ t.within r, e.createdAt.IsBucketed)
    (hp : p ∈ t.points r g byEvent) : p.event.isSome = byEvent := by
  obtain ⟨e, -, hkey, -⟩ := exists_key_of_mem_points hbucketed hp
  rw [← show (pointKey g byEvent e).2 = p.event from congrArg Prod.snd hkey]
  cases byEvent <;> rfl

/-- An event counts for a point just when it has the key of it. -/
theorem counts_iff (hevent : p.event.isSome = byEvent) :
    p.Counts g e ↔ pointKey g byEvent e = (some p.label, p.event) := by
  subst hevent
  rw [SeriesPoint.Counts, pointKey, Prod.mk.injEq]
  cases p.event with
  | none => simp
  | some name => simp [eq_comm]

theorem nodup_points (hbucketed : ∀ e ∈ t.within r, e.createdAt.IsBucketed) :
    ((t.points r g byEvent).map fun p ↦ (some p.label, p.event)).Nodup := by
  have hkeys : ((distinct (t.keys r g byEvent)).map fun k ↦ (some (k.1.getD ""), k.2)) =
      distinct (t.keys r g byEvent) := by
    refine (List.map_congr_left fun k hk ↦ ?_).trans (List.map_id _)
    obtain ⟨e, he, rfl⟩ := List.mem_map.1 (mem_distinct.1 hk)
    exact getD_pointKey byEvent (hbucketed e he)
  rw [points, ((List.mergeSort_perm _ _).map _).nodup_iff, List.map_map]
  have hnodup := nodup_distinct (t.keys r g byEvent)
  rw [← hkeys] at hnodup
  exact hnodup

theorem pairwise_points (hbucketed : ∀ e ∈ t.within r, e.createdAt.IsBucketed) :
    (t.points r g byEvent).Pairwise SeriesPoint.Precedes := by
  have hordered : (t.points r g byEvent).Pairwise fun p q ↦ (comparePoints p q).isLE = true :=
    pairwise_mergeSort_isLE comparePoints _
  refine hordered.imp₂ (fun p q hle hne ↦ precedes_of_isLE_comparePoints hle ?_)
    (List.pairwise_map.1 (nodup_points hbucketed))
  simpa using hne

/-- Points of one name come in the order of their labels. -/
theorem pairwise_label_filter_points (byEvent : Bool)
    (hbucketed : ∀ e ∈ t.within r, e.createdAt.IsBucketed) (name : Option String) :
    ((t.points r g byEvent).filter (·.event == name)).Pairwise fun p q ↦ p.label < q.label := by
  refine ((pairwise_points hbucketed).filter _).imp_of_mem fun {p q} hp hq h ↦ ?_
  have hp' : p.event = name := beq_iff_eq.1 (List.mem_filter.1 hp).2
  have hq' : q.event = name := beq_iff_eq.1 (List.mem_filter.1 hq).2
  refine h.resolve_right fun ⟨_, hbefore⟩ ↦ ?_
  rw [hp', hq'] at hbefore
  exact not_valueBefore_self name hbefore

theorem count_eq_of_mem_points (hbucketed : ∀ e ∈ t.within r, e.createdAt.IsBucketed)
    (hp : p ∈ t.points r g byEvent) : p.count = (t.within r).countP (p.Counts g ·) := by
  obtain ⟨e, he, hkey, hcount⟩ := exists_key_of_mem_points hbucketed hp
  have hevent := isSome_event_of_mem_points hbucketed hp
  rw [hcount, keys, List.count, List.countP_map]
  refine List.countP_congr fun e' _ ↦ ?_
  rw [Function.comp_apply, beq_iff_eq, decide_eq_true_iff, counts_iff hevent, hkey]

/-- The points of a name divide its events by time, and so do all points of a series that is not
divided by name. -/
theorem isTimeline_points (byEvent : Bool)
    (hformat : ∀ e ∈ t.within r, g.Formats e.createdAt) (name : Option String) :
    IsTimeline g ((t.within r).filter fun e ↦ (pointKey g byEvent e).2 == name)
      ((t.points r g byEvent).filter (·.event == name)) := by
  have hbucketed : ∀ e ∈ t.within r, e.createdAt.IsBucketed := fun e he ↦ (hformat e he).isBucketed
  have hpoint {p} (hp : p ∈ (t.points r g byEvent).filter (·.event == name)) :
      p ∈ t.points r g byEvent ∧ p.event = name := by simpa using hp
  have hcounts {p} (hp : p ∈ (t.points r g byEvent).filter (·.event == name)) (e : StoredEvent) :
      p.Counts g e ↔ pointKey g byEvent e = (some p.label, name) := by
    rw [counts_iff (isSome_event_of_mem_points hbucketed (hpoint hp).1), (hpoint hp).2]
  have hlabels := pairwise_label_filter_points (g := g) byEvent hbucketed name
  constructor
  case labels => exact hlabels
  case positive =>
    intro p hp
    obtain ⟨e, he, -, hcount⟩ := exists_key_of_mem_points hbucketed (hpoint hp).1
    rw [hcount]
    exact List.count_pos_iff.2 (List.mem_map_of_mem he)
  case count_eq =>
    intro p hp
    rw [count_eq_of_mem_points hbucketed (hpoint hp).1, List.countP_filter]
    refine List.countP_congr fun e _ ↦ ?_
    simp only [decide_eq_true_iff, Bool.and_eq_true, beq_iff_eq, hcounts hp e]
    exact ⟨fun h ↦ ⟨h, congrArg Prod.snd h⟩, And.left⟩
  case existsUnique =>
    intro e he
    obtain ⟨hmem, hname⟩ : e ∈ t.within r ∧ (pointKey g byEvent e).2 = name := by simpa using he
    obtain ⟨p, hp, hkey⟩ := exists_point_of_mem byEvent hbucketed hmem
    have hp' : p ∈ (t.points r g byEvent).filter (·.event == name) := by
      rw [hkey] at hname
      simpa [hp] using hname
    refine ⟨p, ⟨hp', (hcounts hp' e).2 (by rw [hkey, (hpoint hp').2])⟩, fun q ⟨hq, hqe⟩ ↦ ?_⟩
    apply List.inj_on_of_nodup_map (nodup_points hbucketed) (hpoint hq).1 hp
    rw [← hkey, (hcounts hq e).1 hqe, (hpoint hq).2]
  case sum_eq =>
    rw [sum_points t r g byEvent (· == name), List.countP_eq_length_filter]
    rfl
  case earlier =>
    refine hlabels.imp fun {p q} hlt a ha hpa b hb hqb ↦ ?_
    exact hpa.lt hqb (hformat a (List.mem_of_mem_filter ha)) (hformat b (List.mem_of_mem_filter hb))
      hlt

/-- Two events of a range count for one point if they have the same label. -/
theorem exists_counts_iff (hbucketed : ∀ e ∈ t.within r, e.createdAt.IsBucketed)
    (ha : a ∈ t.within r) (b : StoredEvent) :
    (∃ p ∈ t.points r g false, p.Counts g a ∧ p.Counts g b) ↔
      g.storedLabel a.createdAt = g.storedLabel b.createdAt := by
  constructor
  · rintro ⟨p, -, hpa, hpb⟩
    exact hpa.1.trans hpb.1.symm
  · intro hlabel
    obtain ⟨p, hp, hkey⟩ := exists_point_of_mem (g := g) false hbucketed ha
    have hpa := (counts_iff (isSome_event_of_mem_points hbucketed hp)).2 hkey
    exact ⟨p, hp, hpa, hlabel.symm.trans hpa.1, .inl (congrArg Prod.snd hkey).symm⟩

end Table

namespace Views

variable {v : Views} {t : Table} {r : Option DateRange} {g : Granularity}

namespace Shows

theorem series_eq (h : v.Shows t) (hbucketed : ∀ e ∈ t.within r, e.createdAt.IsBucketed)
    (byEvent : Bool) : (v.series r g (.bool byEvent)).answer? =
      some ⟨t.points r g byEvent, g, byEvent⟩ := by
  rw [h.series, Table.series_eq, if_pos hbucketed]
  rfl

end Shows

/-- The series of a range divides its events by time. Divided by name its points come in the order of
labels and names, and those of each name divide its events by time. -/
structure HasTimelines (v : Views) (t : Table) (r : Option DateRange) (g : Granularity) : Prop where
  whole : ∃ s, (v.series r g (.bool false)).answer? = some s ∧ (∀ p ∈ s.points, p.event = none) ∧
    IsTimeline g (t.within r) s.points
  named : ∃ s, (v.series r g (.bool true)).answer? = some s ∧ (∀ p ∈ s.points, p.event.isSome) ∧
    s.points.Pairwise SeriesPoint.Precedes ∧
    ∀ name, IsTimeline g ((t.within r).filter (·.event == name))
      (s.points.filter (·.event == some name))

/-- Series divide the events of a range by time, as long as the fields of the stored texts are
formatted as they are. -/
theorem hasTimelines_of_formats (h : Of t v) (hformat : ∀ e ∈ t.within r, g.Formats e.createdAt) :
    v.HasTimelines t r g := by
  have hbucketed : ∀ e ∈ t.within r, e.createdAt.IsBucketed := fun e he ↦ (hformat e he).isBucketed
  constructor
  case whole =>
    have hnone : ∀ p ∈ t.points r g false, p.event = none := fun p hp ↦
      by simpa using Table.isSome_event_of_mem_points hbucketed hp
    have hrows : ((t.within r).filter fun e ↦ (Table.pointKey g false e).2 == none) = t.within r :=
      List.filter_eq_self.2 fun _ _ ↦ rfl
    have hpoints : (t.points r g false).filter (·.event == none) = t.points r g false :=
      List.filter_eq_self.2 fun p hp ↦ beq_iff_eq.2 (hnone p hp)
    have htimeline := Table.isTimeline_points false hformat none
    rw [hrows, hpoints] at htimeline
    exact ⟨_, h.shows.series_eq hbucketed false, hnone, htimeline⟩
  case named =>
    refine ⟨_, h.shows.series_eq hbucketed true, fun p hp ↦
      Table.isSome_event_of_mem_points hbucketed hp, Table.pairwise_points hbucketed, fun name ↦ ?_⟩
    simpa [Table.pointKey] using Table.isTimeline_points true hformat (some name)

theorem hasTimelines_twoNames :
    Of twoNames.content twoNames.views ∧ Backend.viewRow 1 1 10 ∈ twoNames.content.within none ∧
      (∀ e ∈ twoNames.content.within none, Granularity.week.Formats e.createdAt) ∧
      twoNames.views.HasTimelines twoNames.content none .week := by
  have h : Of twoNames.content twoNames.views := .store fun _ ↦ rfl
  have hformat : ∀ e ∈ twoNames.content.within none, Granularity.week.Formats e.createdAt := by
    have hearly : ∀ e ∈ twoNames.content.within none,
        e.createdAt.micros + 500 < Instant.limit ∧
          e.createdAt.sinceMidnight + 500 < Instant.dayLength := by decide +kernel
    exact fun e he ↦ Granularity.formats_of_lt (hearly e he).1 fun _ ↦ (hearly e he).2
  exact ⟨h, .head _, hformat, hasTimelines_of_formats h hformat⟩

/-- Two events of a range count for one point of its series if they lie in the same period and,
for weeks, in the same year. No event may be of the last half millisecond of the calendar and, for
weeks, neither of the two of the last half millisecond of a day. -/
theorem exists_counts_iff_samePeriod {a b : StoredEvent} (h : Of t v)
    (hearly : ∀ e ∈ t.within r, e.createdAt.micros + 500 < Instant.limit)
    (ha : a ∈ t.within r) (hb : b ∈ t.within r)
    (hweek : g = .week → a.createdAt.sinceMidnight + 500 < Instant.dayLength ∧
      b.createdAt.sinceMidnight + 500 < Instant.dayLength) :
    ∃ s, (v.series r g (.bool false)).answer? = some s ∧
      (∀ p ∈ s.points, p.count = (t.within r).countP (p.Counts g ·)) ∧
      ((∃ p ∈ s.points, p.Counts g a ∧ p.Counts g b) ↔
        g.SamePeriod a.createdAt b.createdAt ∧
          (g = .week → a.createdAt.date.year = b.createdAt.date.year)) := by
  have hbucketed : ∀ e ∈ t.within r, e.createdAt.IsBucketed := fun e he ↦
    e.createdAt.isBucketed_iff.2 (hearly e he)
  have hformat : g.Formats a.createdAt := Granularity.formats_of_lt (hearly a ha) fun hg ↦ (hweek hg).1
  have hformat' : g.Formats b.createdAt := Granularity.formats_of_lt (hearly b hb) fun hg ↦ (hweek hg).2
  refine ⟨_, h.shows.series_eq hbucketed false, fun p hp ↦
    Table.count_eq_of_mem_points hbucketed hp, ?_⟩
  rw [Table.exists_counts_iff hbucketed ha, hformat.storedLabel_eq_iff hformat']

/-- An event of the last day of a year, a Tuesday. -/
def beforeNewYear : StoredEvent :=
  { Backend.viewRow 1 1 10 with createdAt := .ofDate ⟨2024, 12, 31⟩ }

/-- An event of the first day of the next year, a Wednesday. -/
def onNewYear : StoredEvent :=
  { Backend.viewRow 2 1 10 with createdAt := .ofDate ⟨2025, 1, 1⟩ }

def turnOfYear : Connection := ⟨{ site := 1 }, some [beforeNewYear, onNewYear]⟩

theorem exists_counts_iff_samePeriod_turnOfYear :
    Of turnOfYear.content turnOfYear.views ∧
    (∀ e ∈ turnOfYear.content.within none, e.createdAt.micros + 500 < Instant.limit) ∧
    beforeNewYear ∈ turnOfYear.content.within none ∧ onNewYear ∈ turnOfYear.content.within none ∧
    (beforeNewYear.createdAt.sinceMidnight + 500 < Instant.dayLength ∧
      onNewYear.createdAt.sinceMidnight + 500 < Instant.dayLength) ∧
    ∃ s, (turnOfYear.views.series none .week (.bool false)).answer? = some s ∧
      (∀ p ∈ s.points, p.count = (turnOfYear.content.within none).countP (p.Counts .week ·)) ∧
      ((∃ p ∈ s.points, p.Counts .week beforeNewYear ∧ p.Counts .week onNewYear) ↔
        Granularity.week.SamePeriod beforeNewYear.createdAt onNewYear.createdAt ∧
          (Granularity.week = .week →
            beforeNewYear.createdAt.date.year = onNewYear.createdAt.date.year)) := by
  have h : Of turnOfYear.content turnOfYear.views := .store fun _ ↦ rfl
  have hearly : ∀ e ∈ turnOfYear.content.within none,
      e.createdAt.micros + 500 < Instant.limit := by decide +kernel
  have hmem : beforeNewYear ∈ turnOfYear.content.within none := .head _
  have hmem' : onNewYear ∈ turnOfYear.content.within none := .tail _ (.head _)
  have hweek : beforeNewYear.createdAt.sinceMidnight + 500 < Instant.dayLength ∧
      onNewYear.createdAt.sinceMidnight + 500 < Instant.dayLength := by decide +kernel
  exact ⟨h, hearly, hmem, hmem', hweek,
    exists_counts_iff_samePeriod h hearly hmem hmem' fun _ ↦ hweek⟩

/-- The two events are of one week from Monday to Sunday, and the series of weeks has no point for
which both of them count. -/
theorem turnOfYear_divides_week :
    beforeNewYear ∈ turnOfYear.content.within none ∧ onNewYear ∈ turnOfYear.content.within none ∧
      Granularity.week.SamePeriod beforeNewYear.createdAt onNewYear.createdAt ∧
      ∃ s, (turnOfYear.views.series none .week (.bool false)).answer? = some s ∧
        ¬∃ p ∈ s.points, p.Counts .week beforeNewYear ∧ p.Counts .week onNewYear := by
  have h : Of turnOfYear.content turnOfYear.views := .store fun _ ↦ rfl
  have hbucketed : ∀ e ∈ turnOfYear.content.within none, e.createdAt.IsBucketed := by
    decide +kernel
  refine ⟨.head _, .tail _ (.head _), by decide +kernel, _, h.shows.series_eq hbucketed false, ?_⟩
  rw [Table.exists_counts_iff hbucketed (.head _)]
  decide +kernel

end Views

end Footfall
