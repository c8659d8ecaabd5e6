import Footfall.Proofs.Calendar
import Footfall.Proofs.Counting

/-!
Ranges of whole days. Such a range ends with the last full millisecond of its last day, so that what
happened later on that day is in none of the reads, and an instant that late is not even a range of
its own. All other events of the days are in every read, and none of other days.
-/

namespace Footfall

namespace Instant

/-- After the last full millisecond of the day. -/
def IsLate (t : Instant) : Prop := dayLength - 1000 < t.sinceMidnight

instance (t : Instant) : Decidable t.IsLate := inferInstanceAs (Decidable (_ < _))

theorem day_add_sinceMidnight (t : Instant) : t.day * dayLength + t.sinceMidnight = t.micros := by
  unfold day sinceMidnight
  rw [dayLength_eq]
  omega

theorem sinceMidnight_lt (t : Instant) : t.sinceMidnight < dayLength := by
  unfold sinceMidnight
  rw [dayLength_eq]
  omega

theorem le_def (a b : Instant) : a ≤ b ↔ a.micros ≤ b.micros := Iff.rfl

theorem micros_endOfDay (t : Instant) :
    t.endOfDay.micros = t.day * dayLength + (dayLength - 1000) := rfl

theorem micros_ofDate (d : Date) : (ofDate d).micros = d.number * dayLength := rfl

theorem le_endOfDay_iff (t : Instant) : t ≤ t.endOfDay ↔ ¬t.IsLate := by
  have hmicros := t.day_add_sinceMidnight
  rw [le_def, micros_endOfDay, IsLate]
  omega

/-- The calendar date of an instant lies between two dates. -/
def IsOfDays (first last : Date) (t : Instant) : Prop :=
  first.number ≤ t.date.number ∧ t.date.number ≤ last.number

instance (first last : Date) (t : Instant) : Decidable (t.IsOfDays first last) :=
  inferInstanceAs (Decidable (_ ∧ _))

theorem number_date (t : Instant) : t.date.number = t.day := Date.number_ofNumber t.day

theorem shift?_zero {t : Instant} (ht : t.micros < limit) : t.shift? 0 = some t := by
  have hrange : (0 : Int) ≤ t.micros + 0 ∧ (t.micros + 0 : Int) < limit :=
    ⟨Int.natCast_nonneg _, Int.ofNat_lt.2 ht⟩
  rw [shift?, ofMicros?, if_pos hrange]
  rfl

end Instant

theorem Timestamp.toInstant?_ofInstant {t : Instant} (ht : t.micros < Instant.limit) :
    (ofInstant t).toInstant? = some t := by
  rw [← Instant.shift?_zero ht]
  rfl

namespace DateRange

variable {first last : Date}

/-- The range from one date to another. -/
def ofDays (first last : Date) : DateRange := ⟨some (.ofDate first), some (.ofDate last), false⟩

theorem last_ofDays (first last : Date) :
    (ofDays first last).last = some (Instant.ofDate last).endOfDay := by
  simp [DateRange.last, ofDays, Instant.resolveEnd]

theorem isOrdered_eq (a b : Instant) :
    (DateRange.mk (some a) (some b) false).isOrdered = decide (a ≤ b.endOfDay) := by
  simp [isOrdered, DateRange.last, Instant.resolveEnd]

theorem contains_eq_true_iff (t : Instant) : (ofDays first last).contains t = true ↔
    Instant.ofDate first ≤ t ∧ t ≤ (Instant.ofDate last).endOfDay := by
  have hstart : (ofDays first last).start = some (.ofDate first) := rfl
  rw [contains, last_ofDays, hstart, Option.all_some, Option.all_some, Bool.and_eq_true,
    decide_eq_true_eq, decide_eq_true_eq]

theorem contains_ofDays_iff (t : Instant) : (ofDays first last).contains t = true ↔
    t.IsOfDays first last ∧ (t.date.number = last.number → ¬t.IsLate) := by
  have hmicros := t.day_add_sinceMidnight
  have hlt := t.sinceMidnight_lt
  rw [contains_eq_true_iff, Instant.le_def, Instant.le_def, Instant.micros_endOfDay,
    Instant.day_ofDate, Instant.micros_ofDate, Instant.IsOfDays, Instant.number_date,
    Instant.IsLate]
  have hlength := Instant.dayLength_eq
  generalize Instant.dayLength = length at *
  subst hlength
  omega

theorem isOrdered_ofDays (h : first.number ≤ last.number) :
    (ofDays first last).isOrdered = true := by
  rw [ofDays, isOrdered_eq]
  refine decide_eq_true ?_
  rw [Instant.le_def, Instant.micros_endOfDay, Instant.day_ofDate, Instant.micros_ofDate]
  exact (Nat.mul_le_mul_right _ h).trans (Nat.le_add_right ..)

/-- What is read as a range is refused if it is not in order. -/
theorem read_of_bounds {v w : Value} {a b : Instant}
    (ha : Field.nullable Field.instantOrDate v = .accepted (some a))
    (hb : Field.nullable Field.instantOrDate w = .accepted (some b)) :
    DateRange.read (.object [("start", v), ("end", w)]) =
      if a ≤ b.endOfDay then .accepted ⟨some a, some b, false⟩
      else .refuse (.rule "End date must be on or after start date") := by
  have hv : Value.lookup [("start", v), ("end", w)] "start" = some v := rfl
  have hw : Value.lookup [("start", v), ("end", w)] "end" = some w := rfl
  have hexact : Value.lookup [("start", v), ("end", w)] "end_is_exact" = none := rfl
  simp only [DateRange.read, Field.record, Reading.bind, Field.optional, hv, hw, hexact, ha, hb,
    Reading.under]
  change (if (DateRange.mk (some a) (some b) false).isOrdered = true then _ else _) = _
  simp only [isOrdered_eq, decide_eq_true_eq]

theorem read_ofDays (hfirst : first.IsReal) (hlast : last.IsReal)
    (h : first.number ≤ last.number) :
    DateRange.read (.object [("start", .text first.text), ("end", .text last.text)]) =
      .accepted (ofDays first last) := by
  have hread {d : Date} (hd : d.IsReal) : Field.nullable Field.instantOrDate (.text d.text) =
      .accepted (some (.ofDate d)) := by
    simp [Field.nullable, Field.instantOrDate, Date.strip_text hd, Date.readDate?_text hd,
      Reading.map]
  rw [read_of_bounds (hread hfirst) (hread hlast), if_pos]
  · rfl
  · have hordered := isOrdered_ofDays h
    rwa [ofDays, isOrdered_eq, decide_eq_true_eq] at hordered

theorem read_ofInstant {t : Instant} (ht : t.micros < Instant.limit) :
    Field.nullable Field.instantOrDate (.ofInstant t) = .accepted (some t) := by
  have hinstant : Field.instant (.time (.ofInstant t)) = .accepted t := by
    rw [Field.instant, Field.timestamp, Reading.bind, Timestamp.toInstant?_ofInstant ht]
  change (Field.instant (.time (.ofInstant t))).map some = _
  rw [hinstant]
  rfl

/-- An instant is read as a range of its own unless it is too late on its day. -/
theorem read_instant_iff {t : Instant} (ht : t.micros < Instant.limit) :
    DateRange.read (.object [("start", .ofInstant t), ("end", .ofInstant t)]) =
      .accepted ⟨some t, some t, false⟩ ↔ ¬t.IsLate := by
  have hread := read_ofInstant ht
  rw [read_of_bounds hread hread, ← Instant.le_endOfDay_iff]
  split <;> simp_all [Reading.refuse]

end DateRange

namespace Table

variable {t : Table} {first last : Date}

/-- The rows of the days from one date to another. -/
def ofDays (t : Table) (first last : Date) : Table :=
  t.filter fun e ↦ e.createdAt.IsOfDays first last

theorem within_ofDays_iff : t.within (some (.ofDays first last)) = t.ofDays first last ↔
    ∀ e ∈ t, e.createdAt.IsOfDays first last → e.createdAt.date.number = last.number →
      ¬e.createdAt.IsLate := by
  simp only [within, ofDays, Option.getD_some]
  constructor
  · intro h e he hdays
    have hmem : e ∈ t.filter fun e ↦ decide (e.createdAt.IsOfDays first last) := by
      simp [he, hdays]
    rw [← h, List.mem_filter, DateRange.contains_ofDays_iff] at hmem
    exact hmem.2.2
  · intro h
    apply List.filter_congr
    intro e he
    rw [Bool.eq_iff_iff, DateRange.contains_ofDays_iff, decide_eq_true_eq]
    exact ⟨fun hc ↦ hc.1, fun hdays ↦ ⟨hdays, h e he hdays⟩⟩

/-- Of the rows of the days a range leaves some out, or it has them all. -/
theorem within_ofDays_eq_of_length
    (h : (t.within (some (.ofDays first last))).length = (t.ofDays first last).length) :
    t.within (some (.ofDays first last)) = t.ofDays first last := by
  refine List.Sublist.eq_of_length (List.monotone_filter_right _ fun e he ↦ ?_) h
  exact decide_eq_true ((DateRange.contains_ofDays_iff _).1 he).1

/-- The rows that meet a range and further conditions are the rows in the range that meet these. -/
theorem meeting_range (t : Table) (r : DateRange) (cs : Conditions) :
    t.meeting (r.conditions ++ cs) = (t.within (some r)).meeting cs := by
  rw [meeting_append, ← meeting_rangeConditions]
  rfl

theorem stats_range (t : Table) (r : DateRange) :
    t.stats (some r) = (t.within (some r)).stats none := by
  rw [← meeting_rangeConditions, stats_meeting]
  simp [stats, rangeConditions]

theorem summaryConditions_range (r : DateRange) (o : SummaryOptions) :
    summaryConditions { o with range := some r } =
      rangeConditions (some r) ++ summaryConditions { o with range := none } := by
  simp [summaryConditions, rangeConditions]

theorem summary_range (t : Table) (r : DateRange) (o : SummaryOptions) :
    t.summary { o with range := some r } =
      (t.within (some r)).summary { o with range := none } := by
  rw [← meeting_rangeConditions, summary_meeting]
  simp only [summary, List.nil_append, summaryConditions_range]
  rfl

theorem series_range (t : Table) (r : DateRange) (g : Granularity) (byEvent : Value) :
    t.series (some r) g byEvent = (t.within (some r)).series none g byEvent := by
  rw [← meeting_rangeConditions, series_meeting]
  simp [series, rangeConditions]

end Table

/-- The events of a page and its place. -/
def EventPage.listed (p : EventPage) : Option (List StoredEvent) × Pagination :=
  (p.events, p.pagination)

/-- Filters over whole days, whatever they ask for beside. -/
def EventFilters.ofDays (f : EventFilters) (first last : Date) : EventFilters :=
  { f with start := some (.ofDate first), stop := some (.ofDate last), exact := false }

def EventFilters.anytime (f : EventFilters) : EventFilters :=
  { f with start := none, stop := none, exact := false }

namespace Table

variable {t : Table} {first last : Date}

theorem matching_ofDays (t : Table) (f : EventFilters) :
    t.matching (f.ofDays first last) =
      (t.within (some (.ofDays first last))).matching f.anytime := by
  have hconditions : (f.ofDays first last).conditions =
      (DateRange.ofDays first last).conditions ++ f.anytime.conditions := by
    simp [EventFilters.conditions, EventFilters.ofDays, EventFilters.anytime, EventFilters.range,
      DateRange.ofDays, DateRange.conditions, DateRange.last]
  rw [matching, matching, List.nil_append, List.nil_append, hconditions, meeting_range]

theorem listed_ofDays (t : Table) (f : EventFilters) :
    (t.list (f.ofDays first last)).toOption.map EventPage.listed =
      ((t.within (some (.ofDays first last))).list f.anytime).toOption.map EventPage.listed := by
  rw [list_eq, list_eq, matching_ofDays]
  have hplace : (f.ofDays first last).offset = f.anytime.offset ∧
      (f.ofDays first last).limit = f.anytime.limit := ⟨rfl, rfl⟩
  rw [hplace.1, hplace.2]
  split <;> rfl

end Table

namespace Views

variable {v : Views} {t : Table} {first last : Date}

/-- Each read over a range of days answers as it would without a range if there were only the rows of
these days. -/
structure CoversDays (v : Views) (t : Table) (first last : Date) : Prop where
  stats : (v.stats (some (.ofDays first last))).answer? = some ((t.ofDays first last).stats none)
  list : ∀ f : EventFilters, (v.list (f.ofDays first last)).answer?.map EventPage.listed =
    ((t.ofDays first last).list f.anytime).toOption.map EventPage.listed
  summary : ∀ o : SummaryOptions,
    (v.summary { o with range := some (.ofDays first last) }).answer? =
      ((t.ofDays first last).summary { o with range := none }).toOption
  series : ∀ g byEvent, (v.series (some (.ofDays first last)) g byEvent).answer? =
    ((t.ofDays first last).series none g byEvent).toOption

theorem coversDays_iff (h : v.Shows t) : v.CoversDays t first last ↔
    t.within (some (.ofDays first last)) = t.ofDays first last := by
  constructor
  · intro hcovers
    have hstats := hcovers.stats
    rw [h.stats, Table.stats_range, Option.some.injEq] at hstats
    have htotal := congrArg SiteStats.total hstats
    refine Table.within_ofDays_eq_of_length ?_
    simpa [Table.stats, Table.count, Table.rangeConditions] using htotal
  · intro hsame
    constructor
    case stats => rw [h.stats, Table.stats_range, hsame]
    case list =>
      intro f
      rw [h.list, Table.listed_ofDays, hsame]
    case summary =>
      intro o
      rw [h.summary, Table.summary_range, hsame]
    case series =>
      intro g byEvent
      rw [h.series, Table.series_range, hsame]

/-- All reads over a range of days take in the events of these days and no others exactly if none of
the events is of the last day and late on it. The instants that are late are those after the end of
their day, of which no range of their own is accepted. -/
theorem whole_days_iff (h : Of t v) (hfirst : first.IsReal) (hlast : last.IsReal)
    (hle : first.number ≤ last.number) :
    DateRange.read (.object [("start", .text first.text), ("end", .text last.text)]) =
        .accepted (.ofDays first last) ∧
      (v.CoversDays t first last ↔
        ∀ e ∈ t, e.createdAt.date.number = last.number → ¬e.createdAt.IsLate) ∧
      (∀ i : Instant, i ≤ i.endOfDay ↔ ¬i.IsLate) ∧
      ∀ i : Instant, i.micros < Instant.limit →
        (DateRange.read (.object [("start", .ofInstant i), ("end", .ofInstant i)]) =
          .accepted ⟨some i, some i, false⟩ ↔ ¬i.IsLate) := by
  refine ⟨DateRange.read_ofDays hfirst hlast hle, ?_, Instant.le_endOfDay_iff,
    fun i hi ↦ DateRange.read_instant_iff hi⟩
  rw [coversDays_iff h.shows, Table.within_ofDays_iff]
  refine forall₂_congr fun e _ ↦ ⟨fun hlate hday ↦ hlate ⟨?_, ?_⟩ hday, fun hlate _ ↦ hlate⟩
  · rw [hday]
    exact hle
  · exact hday.le

/-- A store with an event of noon and one of the last moment of a day. -/
def dayStore (moment : Nat) : Connection :=
  ⟨{ site := 1 }, some [{ Backend.viewRow 1 1 10 with
    createdAt := ⟨(Instant.ofDate ⟨2024, 1, 1⟩).micros + moment⟩ }]⟩

theorem whole_days_iff_noon :
    Of (dayStore (12 * Instant.hour)).content (dayStore (12 * Instant.hour)).views ∧
      (⟨2024, 1, 1⟩ : Date).IsReal ∧
      ((dayStore (12 * Instant.hour)).views.CoversDays (dayStore (12 * Instant.hour)).content
          ⟨2024, 1, 1⟩ ⟨2024, 1, 1⟩ ↔
        ∀ e ∈ (dayStore (12 * Instant.hour)).content,
          e.createdAt.date.number = (⟨2024, 1, 1⟩ : Date).number → ¬e.createdAt.IsLate) := by
  have h : Of (dayStore (12 * Instant.hour)).content (dayStore (12 * Instant.hour)).views :=
    .store fun _ ↦ rfl
  have hreal : (⟨2024, 1, 1⟩ : Date).IsReal := by decide
  exact ⟨h, hreal, (whole_days_iff h hreal hreal (Nat.le_refl _)).2.1⟩

/-- Half a millisecond before the end of the day an event is not counted for the day, and the
instant is no range of its own. -/
theorem lateMoment_not_counted :
    (⟨(Instant.ofDate ⟨2024, 1, 1⟩).micros + (Instant.dayLength - 500)⟩ : Instant).date =
        ⟨2024, 1, 1⟩ ∧
      ((dayStore (Instant.dayLength - 500)).views.stats
        (some (.ofDays ⟨2024, 1, 1⟩ ⟨2024, 1, 1⟩))).answer?.map SiteStats.total = some 0 ∧
      DateRange.isOrdered
        ⟨some ⟨(Instant.ofDate ⟨2024, 1, 1⟩).micros + (Instant.dayLength - 500)⟩,
          some ⟨(Instant.ofDate ⟨2024, 1, 1⟩).micros + (Instant.dayLength - 500)⟩, false⟩ =
        false := by
  have h : Of (dayStore (Instant.dayLength - 500)).content
      (dayStore (Instant.dayLength - 500)).views := .store fun _ ↦ rfl
  have htotal : ((dayStore (Instant.dayLength - 500)).content.stats
      (some (.ofDays ⟨2024, 1, 1⟩ ⟨2024, 1, 1⟩))).total = 0 := by decide
  refine ⟨by decide, ?_, by decide⟩
  rw [h.shows.stats, Option.map_some, htotal]

end Views

end Footfall
