import Footfall.Proofs.Chronology
import Footfall.Proofs.Rounding

/-!
Labels of buckets. A label is a list of numbers, each with its own count of digits; so labels come in
the order of these numbers, which is that of time, and two instants have the same label exactly when
they lie in the same hour, day or month, and for weeks in the same week of the same year. A store
gives these labels as long as it sees the instants on their own days.
-/

namespace Footfall

namespace Date

theorem splitYear_snd_le (n : Nat) : (splitYear n).2 ≤ 365 := by
  simp only [splitYear]
  omega

theorem weekOfYear_lt (n : Nat) : weekOfYear n < 100 := by
  have := splitYear_snd_le n
  unfold weekOfYear
  omega

theorem isoWeek_lt (n : Nat) : isoWeek n < 100 := by
  have := splitYear_snd_le (thursday n)
  unfold isoWeek
  omega

/-- The last day of the calendar is a Friday, so the Thursday of each week is in it. -/
theorem thursday_lt {n : Nat} (h : n < 3652059) : thursday n < 3652059 := by
  unfold thursday weekday
  omega

end Date

namespace LabelPart

variable {p : LabelPart} {t u : Instant} {n : Nat}

/-- The number that a part of a label shows, if it does not show the same text always. -/
def number? (t : Instant) : LabelPart → Option Nat
  | .year => some t.date.year
  | .isoYear => some (Date.isoYear t.day)
  | .month => some t.date.month
  | .day => some t.date.day
  | .hour => some t.hourOfDay
  | .weekOfYear => some (Date.weekOfYear t.day)
  | .isoWeek => some (Date.isoWeek t.day)
  | .mark _ | .letters _ => none

/-- The count of digits of the number that a part shows. -/
def width : LabelPart → Nat
  | .year | .isoYear => 4
  | _ => 2

theorem label_of_number? (h : p.number? t = some n) : p.label t = padded p.width n := by
  cases p <;> cases h <;> rfl

theorem label_of_number?_none (h : p.number? t = none) (u : Instant) :
    p.label t = p.label u ∧ p.number? u = none := by
  cases p with
  | mark | letters => exact ⟨rfl, rfl⟩
  | _ => cases h

theorem number?_of_some (h : p.number? t = some n) (u : Instant) :
    ∃ m, p.number? u = some m := by
  cases p with
  | mark | letters => cases h
  | _ => exact ⟨_, rfl⟩

theorem exists_width (p : LabelPart) : ∃ w, p.width = w + 1 := by
  cases p <;> exact ⟨_, rfl⟩

/-- Each number has the digits for it, as long as the instant is in the calendar. -/
theorem number?_lt (ht : t.micros < Instant.limit) (h : p.number? t = some n) :
    n < 10 ^ p.width := by
  have hday := Instant.day_lt ht
  obtain ⟨hyear, hmonth, hdate⟩ := (Date.isReal_ofNumber hday).parts_lt
  cases p with
  | mark | letters => cases h
  | year => cases h; exact hyear
  | month => cases h; exact hmonth
  | day => cases h; exact hdate
  | hour => cases h; exact t.hourOfDay_lt.trans (by decide)
  | weekOfYear => cases h; exact Date.weekOfYear_lt _
  | isoWeek => cases h; exact Date.isoWeek_lt _
  | isoYear =>
    cases h
    exact Nat.lt_succ_of_le (Date.splitYear_fst_le (Date.thursday_lt hday)).2

/-- By induction on the parts: one that always shows the same decides nothing, and the numbers of
any other are padded to one width. -/
theorem join_label_lt_iff (ht : t.micros < Instant.limit) (hu : u.micros < Instant.limit)
    (ps : List LabelPart) :
    (String.join (ps.map (label t))).toList < (String.join (ps.map (label u))).toList ↔
      ps.filterMap (number? t) < ps.filterMap (number? u) := by
  induction ps with
  | nil => simp
  | cons p ps ih =>
    rw [List.map_cons, List.map_cons, String.join_cons, String.join_cons, String.toList_append,
      String.toList_append]
    cases hp : p.number? t with
    | none =>
      obtain ⟨hlabel, hp'⟩ := label_of_number?_none hp u
      rw [List.filterMap_cons_none hp, List.filterMap_cons_none hp', hlabel,
        append_lt_append_iff rfl, ih]
      simp
    | some m =>
      obtain ⟨n, hp'⟩ := number?_of_some hp u
      obtain ⟨w, hw⟩ := p.exists_width
      have hm := number?_lt ht hp
      have hn := number?_lt hu hp'
      rw [List.filterMap_cons_some hp, List.filterMap_cons_some hp', label_of_number? hp,
        label_of_number? hp', List.cons_lt_cons_iff]
      rw [hw] at hm hn ⊢
      rw [append_lt_append_iff (length_padded_eq hm hn), (padded_lt_and_inj hm hn).1,
        (padded_lt_and_inj hm hn).2, ih]

end LabelPart

namespace Granularity

variable {g : Granularity} {t u : Instant}

/-- The numbers that a label shows. -/
def numbers (g : Granularity) (t : Instant) : List Nat :=
  (g.parts .sqlite).filterMap (LabelPart.number? t)

@[simp] theorem numbers_hour (t : Instant) :
    numbers .hour t = [t.date.year, t.date.month, t.date.day, t.hourOfDay] := rfl

@[simp] theorem numbers_day (t : Instant) :
    numbers .day t = [t.date.year, t.date.month, t.date.day] := rfl

@[simp] theorem numbers_week (t : Instant) :
    numbers .week t = [t.date.year, Date.weekOfYear t.day] := rfl

@[simp] theorem numbers_month (t : Instant) :
    numbers .month t = [t.date.year, t.date.month] := rfl

theorem label_lt_iff (ht : t.micros < Instant.limit) (hu : u.micros < Instant.limit) :
    g.label t < g.label u ↔ g.numbers t < g.numbers u :=
  String.lt_iff_toList_lt.trans (LabelPart.join_label_lt_iff ht hu _)

theorem label_eq_iff (ht : t.micros < Instant.limit) (hu : u.micros < Instant.limit) :
    g.label t = g.label u ↔ g.numbers t = g.numbers u := by
  rw [← not_iff_not, ← ne_eq, ← ne_eq, ne_iff_lt_or_gt, ne_iff_lt_or_gt,
    label_lt_iff ht hu, label_lt_iff hu ht]

/-- Two instants lie in the same hour, the same day, the same week from Monday to Sunday, or the
same month. The first day of the calendar is a Monday. -/
def SamePeriod : Granularity → Instant → Instant → Prop
  | .hour, t, u => t.micros / Instant.hour = u.micros / Instant.hour
  | .day, t, u => t.day = u.day
  | .week, t, u => t.day / 7 = u.day / 7
  | .month, t, u => t.date.year = u.date.year ∧ t.date.month = u.date.month

instance (g : Granularity) (t u : Instant) : Decidable (g.SamePeriod t u) := by
  cases g <;> unfold SamePeriod <;> infer_instance

/-- Weeks of a year, which are counted from its first Monday on, come in the order of the weeks. -/
theorem weekOfYear_iff (h : t.date.year = u.date.year) :
    (Date.weekOfYear t.day < Date.weekOfYear u.day ↔ t.day / 7 < u.day / 7) ∧
      (Date.weekOfYear t.day = Date.weekOfYear u.day ↔ t.day / 7 = u.day / 7) := by
  have hstart := Date.yearStart_splitYear t.day
  have hstart' := Date.yearStart_splitYear u.day
  have hyear : (Date.splitYear t.day).1 = (Date.splitYear u.day).1 := h
  rw [hyear] at hstart
  simp only [Date.weekOfYear, Date.weekday]
  omega

theorem date_eq_iff : t.date = u.date ↔ t.day = u.day := by
  refine ⟨fun h ↦ ?_, congrArg Date.ofNumber⟩
  rw [← Date.number_ofNumber t.day, ← Date.number_ofNumber u.day]
  exact congrArg Date.number h

theorem date_parts_iff : t.date.year = u.date.year ∧ t.date.month = u.date.month ∧
    t.date.day = u.date.day ↔ t.day = u.day := by
  rw [← date_eq_iff]
  cases t.date
  cases u.date
  simp

/-- Labels show the same numbers in one period, and for weeks in one week of one year. -/
theorem numbers_eq_iff : g.numbers t = g.numbers u ↔
    g.SamePeriod t u ∧ (g = .week → t.date.year = u.date.year) := by
  cases g with
  | hour =>
    have hhour : t.day = u.day ∧ t.hourOfDay = u.hourOfDay ↔
        t.micros / Instant.hour = u.micros / Instant.hour := by
      simp only [Instant.day, Instant.hourOfDay, Instant.sinceMidnight, Instant.dayLength_eq,
        Instant.hour, Instant.second]
      omega
    simp [SamePeriod, ← hhour, ← date_parts_iff, and_assoc]
  | day => simp [SamePeriod, date_parts_iff]
  | month => simp [SamePeriod]
  | week =>
    have hweek := fun h : t.date.year = u.date.year ↦ (weekOfYear_iff h).2
    simp only [numbers_week, List.cons.injEq, and_true, SamePeriod, forall_const]
    tauto

/-- Labels show greater numbers later only. -/
theorem lt_of_numbers_lt (ht : t.micros < Instant.limit) (hu : u.micros < Instant.limit)
    (h : g.numbers t < g.numbers u) : t < u := by
  have hreal : t.date.IsReal := Date.isReal_ofNumber (Instant.day_lt ht)
  have hreal' : u.date.IsReal := Date.isReal_ofNumber (Instant.day_lt hu)
  have hday (hlt : t.day < u.day) : t < u := by
    show t.micros < u.micros
    simp only [Instant.day, Instant.dayLength_eq] at hlt
    omega
  have hdate (hbefore : t.date.IsBefore u.date) : t < u := by
    have hnumber := Date.number_lt_of_isBefore hreal hreal' hbefore
    rw [Instant.date, Instant.date, Date.number_ofNumber, Date.number_ofNumber] at hnumber
    exact hday hnumber
  cases g with
  | hour =>
    simp only [numbers_hour, List.cons_lt_cons_iff, List.not_lt_nil, and_false, or_false] at h
    by_cases hbefore : t.date.IsBefore u.date
    · exact hdate hbefore
    · obtain ⟨hsame, hhour⟩ : t.day = u.day ∧ t.hourOfDay < u.hourOfDay := by
        rw [← date_parts_iff]
        unfold Date.IsBefore at hbefore
        tauto
      show t.micros < u.micros
      simp only [Instant.day, Instant.hourOfDay, Instant.sinceMidnight, Instant.dayLength_eq,
        Instant.hour, Instant.second] at hsame hhour
      omega
  | day =>
    simp only [numbers_day, List.cons_lt_cons_iff, List.not_lt_nil, and_false, or_false] at h
    exact hdate h
  | month =>
    simp only [numbers_month, List.cons_lt_cons_iff, List.not_lt_nil, and_false, or_false] at h
    exact hdate (h.imp_right (And.imp_right .inl))
  | week =>
    simp only [numbers_week, List.cons_lt_cons_iff, List.not_lt_nil, and_false, or_false] at h
    rcases h with hyear | ⟨hyear, hweek⟩
    · exact hdate (.inl hyear)
    · have := (weekOfYear_iff hyear).1.1 hweek
      exact hday (by omega)

/-- An embedded store formats the fields of the text of an instant as they are. -/
def Formats (g : Granularity) (t : Instant) : Prop := g.storedLabel t = some (g.label t)

instance (g : Granularity) (t : Instant) : Decidable (g.Formats t) :=
  inferInstanceAs (Decidable (_ = _))

theorem Formats.isBucketed (h : g.Formats t) : t.IsBucketed :=
  (Table.isSome_storedLabel g t).1 (Option.isSome_of_eq_some h)

theorem Formats.lt (h : g.Formats t) : t.micros < Instant.limit :=
  Nat.lt_of_le_of_lt (Nat.le_add_right _ 500) (t.isBucketed_iff.1 h.isBucketed)

theorem Formats.storedLabel_eq_iff (ht : g.Formats t) (hu : g.Formats u) :
    g.storedLabel t = g.storedLabel u ↔
      g.SamePeriod t u ∧ (g = .week → t.date.year = u.date.year) := by
  have htext : g.storedLabel t = g.storedLabel u ↔ g.label t = g.label u := by
    rw [show g.storedLabel t = _ from ht, show g.storedLabel u = _ from hu, Option.some_inj]
  rw [htext, label_eq_iff ht.lt hu.lt, numbers_eq_iff]

/-- It does so half a millisecond before the end of the calendar, for weeks before that of a day. -/
theorem formats_of_lt (h : t.micros + 500 < Instant.limit)
    (hweek : g = .week → t.sinceMidnight + 500 < Instant.dayLength) : g.Formats t := by
  have hbucketed : t.storedDay * Instant.dayLength < Instant.limit := t.isBucketed_iff.2 h
  rw [Formats, storedLabel, if_pos hbucketed]
  cases g with
  | hour | day | month => rfl
  | week =>
    have hstored : t.storedWeek = Date.weekOfYear t.day := by
      rw [Instant.storedWeek, t.storedDay_eq_day_iff.2 (hweek rfl)]
      rfl
    simp [parts, LabelPart.storedLabel, label, labelIn, LabelPart.label, hstored]

end Granularity

end Footfall
