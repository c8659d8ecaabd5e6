import Footfall.Proofs.Chronology
import Footfall.Proofs.Naming

/-!
The range of days of a widget's filters. It is used if both ends are the texts of days that the
calendar has, and then takes the events whose day is between the two; compared as texts or as
instants, the times of events give the same. All other texts drop the range. The one range that
breaks the compilation ends on the last day of the calendar, which no day follows.
-/

namespace Footfall

namespace Instant

variable {t : Instant} {d : Date}

/-- An instant is before a midnight if its date is. -/
theorem lt_ofDate_iff (ht : t.micros < limit) (hd : d.IsReal) :
    t < ofDate d ↔ t.date.IsBefore d := by
  have hreal : t.date.IsReal := Date.isReal_ofNumber (day_lt ht)
  rw [lt_ofDate_iff_day, ← Date.number_lt_iff hreal hd, date, Date.number_ofNumber]

/-- The day of an instant is neither before the first of a range of days nor after the last. -/
def IsWithin (first last : Date) (t : Instant) : Prop :=
  ¬t.date.IsBefore first ∧ ¬last.IsBefore t.date

end Instant

namespace Report

variable {d last : Date}

theorem isReal_lastDate : lastDate.IsReal := by decide

theorem number_lt_lastDate (hd : d.IsReal) (hend : d ≠ lastDate) : d.number < lastDate.number := by
  rcases Date.IsBefore.trichotomy d lastDate with hbefore | heq | hafter
  · exact Date.number_lt_of_isBefore hd isReal_lastDate hbefore
  · exact absurd heq hend
  · obtain ⟨-, hyear, -, hmonth, -, hday⟩ := hd
    have hlength : Date.monthLength 9999 12 = 31 := by decide
    rcases hafter with h | ⟨h, h' | ⟨h', h''⟩⟩
    · exact absurd h hyear.not_gt
    · exact absurd h' hmonth.not_gt
    · rw [← h, ← h'] at hday
      exact absurd h'' (hday.trans_eq hlength).not_gt

/-- The day after a day that is not the last. -/
def dayAfter (d : Date) : Date := .ofNumber (d.number + 1)

theorem isReal_dayAfter (hd : d.IsReal) (hend : d ≠ lastDate) : (dayAfter d).IsReal :=
  Date.isReal_ofNumber (Nat.add_lt_add_right (number_lt_lastDate hd hend) 1)

/-- The days before the one that follows are those that are not after. -/
theorem isBefore_dayAfter_iff {a : Date} (ha : a.IsReal) (hd : d.IsReal) (hend : d ≠ lastDate) :
    a.IsBefore (dayAfter d) ↔ ¬d.IsBefore a := by
  rw [← Date.number_lt_iff ha (isReal_dayAfter hd hend), ← Date.number_lt_iff hd ha, dayAfter,
    Date.number_ofNumber, Nat.lt_succ_iff, not_lt]

/-- Whether the text of a time of creation meets a condition on the day, compared as texts are. -/
def Condition.holdsOfText (created : String) : Condition → Bool
  | .since day => !decide (created.toList < (midnightText day).toList)
  | .before day => decide (created.toList < (midnightText day).toList)
  | .number .. | .text .. => true

section

variable {e : StoredEvent} (he : e.createdAt.micros < Instant.limit) (hd : d.IsReal)
include he hd

theorem since_holds_iff :
    (Condition.holds e (.since d) = true ↔ ¬e.createdAt.date.IsBefore d) ∧
      (Condition.holdsOfText e.createdAt.storedText (.since d) = true ↔
        ¬e.createdAt.date.IsBefore d) := by
  rw [Condition.holds, Condition.holdsOfText, decide_eq_true_iff, Bool.not_eq_true',
    decide_eq_false_iff_not]
  exact ⟨Nat.not_lt.symm.trans (not_congr (Instant.lt_ofDate_iff he hd)),
    not_congr (Instant.storedText_lt_midnight_iff he hd)⟩

theorem before_holds_iff :
    (Condition.holds e (.before d) = true ↔ e.createdAt.date.IsBefore d) ∧
      (Condition.holdsOfText e.createdAt.storedText (.before d) = true ↔
        e.createdAt.date.IsBefore d) := by
  rw [Condition.holds, Condition.holdsOfText, decide_eq_true_iff, decide_eq_true_iff]
  exact ⟨Instant.lt_ofDate_iff he hd, Instant.storedText_lt_midnight_iff he hd⟩

end

/-- What the conditions of a range of days select, with times compared as instants and as texts. -/
theorem range_holds_iff {first : Date} (hfirst : first.IsReal) (hlast : last.IsReal)
    (hend : last ≠ lastDate) {e : StoredEvent} (he : e.createdAt.micros < Instant.limit) :
    ((∀ c ∈ [.since first, .before (dayAfter last)], Condition.holds e c = true) ↔
        e.createdAt.IsWithin first last) ∧
      ((∀ c ∈ [.since first, .before (dayAfter last)],
          Condition.holdsOfText e.createdAt.storedText c = true) ↔
        e.createdAt.IsWithin first last) := by
  have hdate : e.createdAt.date.IsReal := Date.isReal_ofNumber (Instant.day_lt he)
  have hsince := since_holds_iff he hfirst
  have hbefore := before_holds_iff he (isReal_dayAfter hlast hend)
  rw [isBefore_dayAfter_iff hdate hlast hend] at hbefore
  simp [hsince, hbefore, Instant.IsWithin]

/-- The text of a day that the calendar has. -/
def IsDayText (s : Option String) (d : Date) : Prop := d.IsReal ∧ s = some d.text

theorem dateOf?_eq_some_iff {s : Option String} : dateOf? s = some d ↔ IsDayText s d := by
  cases s with
  | none => simp [dateOf?, IsDayText]
  | some s =>
    have hread : Time.readDate? s.toList = some (.ok d) ↔ _ := Date.readDate?_eq_some_iff
    rw [String.toList_inj] at hread
    rw [IsDayText, Option.some.injEq, ← hread, dateOf?, Option.map_some, Option.bind_some]
    split
    · rename_i h
      simp [h]
    · rename_i h
      simpa using fun h' ↦ h _ h'

variable {f : WidgetFilters} {first : Date}

/-- A range of days that ends on the last day of the calendar. -/
def RunsOut (f : WidgetFilters) : Prop :=
  (∃ first, IsDayText f.start first) ∧ IsDayText f.stop lastDate

theorem dayConditions_of_isDayText (hfirst : IsDayText f.start first)
    (hlast : IsDayText f.stop last) : dayConditions f =
      if last = lastDate then .error .outsideCalendar
      else .ok [.since first, .before (dayAfter last)] := by
  rw [dayConditions, dateOf?_eq_some_iff.2 hfirst, dateOf?_eq_some_iff.2 hlast]
  simp only [nextDay]
  split <;> rfl

theorem dayConditions_of_runsOut (h : RunsOut f) : dayConditions f = .error .outsideCalendar := by
  obtain ⟨⟨first, hfirst⟩, hlast⟩ := h
  rw [dayConditions_of_isDayText hfirst hlast, if_pos rfl]

theorem dayConditions_of_not (h : ¬∃ first last, IsDayText f.start first ∧ IsDayText f.stop last) :
    dayConditions f = .ok [] := by
  unfold dayConditions
  split
  · rename_i first last hfirst hlast
    exact absurd ⟨first, last, dateOf?_eq_some_iff.1 hfirst, dateOf?_eq_some_iff.1 hlast⟩ h
  · rfl

theorem IsDayText.unique {s : Option String} {a b : Date} (ha : IsDayText s a)
    (hb : IsDayText s b) : a = b := by
  have := dateOf?_eq_some_iff.2 ha
  rwa [dateOf?_eq_some_iff.2 hb, Option.some.injEq, eq_comm] at this

/-- The conditions on the day that filters come to: none, those of a range, or the failure. -/
theorem dayRange_cases (f : WidgetFilters) :
    (RunsOut f ∧ dayConditions f = .error .outsideCalendar) ∨
      (¬(∃ first last, IsDayText f.start first ∧ IsDayText f.stop last) ∧
        dayConditions f = .ok []) ∨
      ∃ first last, IsDayText f.start first ∧ IsDayText f.stop last ∧ last ≠ lastDate ∧
        dayConditions f = .ok [.since first, .before (dayAfter last)] := by
  by_cases h : ∃ first last, IsDayText f.start first ∧ IsDayText f.stop last
  · obtain ⟨first, last, hfirst, hlast⟩ := h
    have hdays := dayConditions_of_isDayText hfirst hlast
    by_cases hend : last = lastDate
    · rw [if_pos hend] at hdays
      exact .inl ⟨⟨⟨first, hfirst⟩, hend ▸ hlast⟩, hdays⟩
    · rw [if_neg hend] at hdays
      exact .inr (.inr ⟨first, last, hfirst, hlast, hend, hdays⟩)
  · exact .inr (.inl ⟨h, dayConditions_of_not h⟩)

section

variable {w : Widget} {columns : List String} {dialect : Value} {dial : Dialect}
  {scope : Option Scope} {tenant : List Condition}

theorem compile_some (hdialect : Dialect.ofValue dialect = .ok dial)
    (hfields : ∀ field ∈ referencedFields w, IsGood columns field)
    (hscope : scopeConditions scope = .ok tenant) (f : WidgetFilters) :
    compile w columns (some f) dialect scope = (dayConditions f).mapError .fault >>= fun days ↦
      .ok ⟨dial, groupingOf w, metricOf w, tenant ++ (days ++ textConditions f),
        rowLimit w.limit⟩ := by
  simp only [compile, hdialect, checkFields_of_isGood hfields, hscope, filterConditions]
  cases dayConditions f <;> rfl

theorem exists_compile (hdialect : Dialect.ofValue dialect = .ok dial)
    (hfields : ∀ field ∈ referencedFields w, IsGood columns field)
    (hscope : scopeConditions scope = .ok tenant) (hout : ¬RunsOut f) :
    ∃ q, compile w columns (some f) dialect scope = .ok q := by
  have hcompile := compile_some hdialect hfields hscope f
  rcases dayRange_cases f with ⟨hout', -⟩ | ⟨-, hdays⟩ | ⟨_, _, -, -, -, hdays⟩
  · exact absurd hout' hout
  · exact ⟨_, by rw [hcompile, hdays]; rfl⟩
  · exact ⟨_, by rw [hcompile, hdays]; rfl⟩

theorem isOnDay_of_mem_scopeConditions (hscope : scopeConditions scope = .ok tenant) :
    ∀ c ∈ tenant, c.isOnDay = false := by
  cases scope with
  | none =>
    cases hscope
    simp
  | some s =>
    obtain ⟨n, m, rfl⟩ := exists_of_scopeConditions hscope
    simp [Condition.isOnDay]

theorem isOnDay_of_mem_textConditions : ∀ c ∈ textConditions f, c.isOnDay = false := by
  intro c hc
  obtain ⟨p, -, rfl⟩ := List.mem_map.1 hc
  rfl

theorem isOnDay_of_mem_dayConditions {days : List Condition} (h : dayConditions f = .ok days) :
    ∀ c ∈ days, c.isOnDay = true := by
  rcases dayConditions_cases h with ⟨-, rfl⟩ | ⟨-, a, b, rfl⟩
  · simp
  · simp [Condition.isOnDay]

/-- The conditions of a query on the day are those that the range of its filters comes to. -/
theorem onDay_of_compile {q : ChartQuery}
    (h : compile w columns (some f) dialect scope = .ok q) :
    ∃ days, dayConditions f = .ok days ∧
      ∀ c, c ∈ q.conditions ∧ c.isOnDay = true ↔ c ∈ days := by
  obtain ⟨-, tenant, filtered, -, -, htenant, hfiltered, rfl⟩ := compile_parts h
  obtain ⟨days, hdays, hfiltered⟩ := bind_eq_ok_iff.1 hfiltered
  cases hfiltered
  refine ⟨days, hdays, fun c ↦ ⟨fun ⟨hc, hday⟩ ↦ ?_, fun hc ↦ ?_⟩⟩
  · rcases List.mem_append.1 hc with hc | hc
    · rw [isOnDay_of_mem_scopeConditions htenant c hc] at hday
      cases hday
    · rcases List.mem_append.1 hc with hc | hc
      · exact hc
      · rw [isOnDay_of_mem_textConditions c hc] at hday
        cases hday
  · exact ⟨List.mem_append_right _ (List.mem_append_left _ hc),
      isOnDay_of_mem_dayConditions hdays c hc⟩

/-- The compilation over filters fails if their range runs out of the calendar, and only then. A
query has conditions on the day exactly if both ends of the range are days, and these conditions then
select the events of the days from the first to the last; so they do when times are compared as
texts. -/
theorem compile_dayRange (hdialect : Dialect.ofValue dialect = .ok dial)
    (hfields : ∀ field ∈ referencedFields w, IsBareName field ∧ field ∈ columns)
    (hscope : scopeConditions scope = .ok tenant) (f : WidgetFilters) :
    (RunsOut f → compile w columns (some f) dialect scope = .error (.fault .outsideCalendar)) ∧
      (¬RunsOut f → ∃ q, compile w columns (some f) dialect scope = .ok q) ∧
      ∀ q, compile w columns (some f) dialect scope = .ok q →
        ((∃ c ∈ q.conditions, c.isOnDay = true) ↔
          ∃ first last, IsDayText f.start first ∧ IsDayText f.stop last) ∧
        ∀ first last, IsDayText f.start first → IsDayText f.stop last →
          ∀ e : StoredEvent, e.createdAt.micros < Instant.limit →
            ((∀ c ∈ q.conditions, c.isOnDay = true → c.holds e = true) ↔
              e.createdAt.IsWithin first last) ∧
            ((∀ c ∈ q.conditions, c.isOnDay = true →
                c.holdsOfText e.createdAt.storedText = true) ↔
              e.createdAt.IsWithin first last) := by
  refine ⟨fun hout ↦ ?_, exists_compile hdialect hfields hscope, fun q hq ↦ ?_⟩
  · rw [compile_some hdialect hfields hscope f, dayConditions_of_runsOut hout]
    rfl
  · obtain ⟨days, hdays, hmem⟩ := onDay_of_compile hq
    have hany : (∃ c ∈ q.conditions, c.isOnDay = true) ↔ ∃ c, c ∈ days := by simp only [hmem]
    have hall (p : Condition → Prop) :
        (∀ c ∈ q.conditions, c.isOnDay = true → p c) ↔ ∀ c ∈ days, p c := by
      simp only [← hmem, and_imp]
    simp only [hall, hany]
    rcases dayRange_cases f with ⟨-, hdays'⟩ | ⟨hno, hdays'⟩ | ⟨a, b, ha, hb, hend, hdays'⟩
    · cases hdays.symm.trans hdays'
    · cases hdays.symm.trans hdays'
      exact ⟨iff_of_false (by simp) hno, fun first last hfirst hlast ↦
        absurd ⟨first, last, hfirst, hlast⟩ hno⟩
    · cases hdays.symm.trans hdays'
      refine ⟨iff_of_true ⟨_, List.mem_cons_self⟩ ⟨a, b, ha, hb⟩, ?_⟩
      rintro first last hfirst hlast e he
      cases hfirst.unique ha
      cases hlast.unique hb
      exact range_holds_iff hfirst.1 hlast.1 hend he

end

/-- Over a month of the calendar there is a query, and it takes the events of that month. -/
theorem compile_dayRange_month :
    ∃ q, compile { xField := "country" } ["country"] (some (monthFilters "phone"))
        (.text "sqlite") none = .ok q ∧
      (∃ c ∈ q.conditions, c.isOnDay = true) ∧
      ∀ e : StoredEvent, e.createdAt.micros < Instant.limit →
        ((∀ c ∈ q.conditions, c.isOnDay = true → c.holds e = true) ↔
          e.createdAt.IsWithin ⟨2024, 2, 1⟩ ⟨2024, 2, 29⟩) := by
  have hfirst : IsDayText (monthFilters "phone").start ⟨2024, 2, 1⟩ := ⟨by decide, rfl⟩
  have hlast : IsDayText (monthFilters "phone").stop ⟨2024, 2, 29⟩ := ⟨by decide, rfl⟩
  have hcountry : IsGood ["country"] "country" :=
    ⟨(isIdentifier_iff "country").1 rfl, List.mem_singleton_self _⟩
  have hfields : ∀ field ∈ referencedFields { xField := "country" }, IsGood ["country"] field := by
    rintro field (_ | ⟨_, ⟨⟩⟩)
    exact hcountry
  have hdialect : Dialect.ofValue (.text "sqlite") = .ok .sqlite := rfl
  have hscope : scopeConditions none = .ok [] := rfl
  obtain ⟨-, hquery, hdays⟩ := compile_dayRange hdialect hfields hscope (monthFilters "phone")
  obtain ⟨q, hq⟩ := hquery fun hout ↦ absurd (hlast.unique hout.2) (by decide)
  obtain ⟨hused, hselect⟩ := hdays q hq
  exact ⟨q, hq, hused.2 ⟨_, _, hfirst, hlast⟩, fun e he ↦ (hselect _ _ hfirst hlast e he).1⟩

/-- The last day of the calendar is a day, and a range that ends on it breaks the compilation. -/
theorem lastDay_breaks :
    lastDate.IsReal ∧ lastDate.text = "9999-12-31" ∧
      compile { xField := "event" } ["event"]
        (some { start := some "9999-12-31", stop := some "9999-12-31" }) (.text "sqlite") none =
        .error (.fault .outsideCalendar) :=
  ⟨by decide, rfl, rfl⟩

end Report

end Footfall
