import Footfall.Http.Answer
import Footfall.Proofs.DateForms

/-!
The dates of a request. A parameter is read in every form of a date, although the refusal names one
form only. Two dates in order make a range that passes its own test; everything else is refused as a
bad request before the service is asked.
-/

namespace Footfall.Http

/-- A text in some form of a date that the calendar has. -/
def IsDate (x : Date) (s : String) : Prop := x.IsReal ∧ x.HasForm s

/-- A text in the form of a date that the refusal names. -/
def IsPlainDate (x : Date) (s : String) : Prop := x.IsReal ∧ s = x.text

/-- What a parameter gives if dates are written in some way: nothing if it is missing or empty, and
otherwise the date that it is the text of. -/
def Gives (isText : Date → String → Prop) (p : Option String) : Option Date → Prop
  | none => p = none ∨ p = some ""
  | some x => ∃ s, p = some s ∧ isText x s

variable {isText : Date → String → Prop} {x : Date} {s : String} {p : Option String}
  {a b : Option Date} {d : Dates} {r : DateRange} {call : Call}

theorem IsPlainDate.isDate (h : IsPlainDate x s) : IsDate x s := ⟨h.1, h.2 ▸ .text⟩

theorem Gives.isDate (h : Gives IsPlainDate p a) : Gives IsDate p a := by
  cases a with
  | none => exact h
  | some x =>
    obtain ⟨s, hs, hx⟩ := h
    exact ⟨s, hs, hx.isDate⟩

theorem readIsoDate?_empty : Time.readIsoDate? "".utf8ByteSize "".toList = none := rfl

namespace Dates

theorem date_eq_ok_iff : date p = .ok a ↔ Gives IsDate p a := by
  cases p with
  | none => cases a <;> simp [date, Gives]
  | some s =>
    by_cases hempty : s = ""
    · subst hempty
      cases a with
      | none => simp [date, Gives]
      | some x =>
        have hnot : ¬IsDate x "" := fun h ↦ by
          cases readIsoDate?_empty.symm.trans (Date.readIsoDate?_eq_some_iff.2 h)
        simp [date, Gives, hnot]
    · cases hread : Time.readIsoDate? s.utf8ByteSize s.toList with
      | none =>
        have hnot (x : Date) : ¬IsDate x s := fun h ↦ by
          cases hread.symm.trans (Date.readIsoDate?_eq_some_iff.2 h)
        cases a <;> simp [date, Gives, hempty, hread, hnot]
      | some y =>
        have hsame (x : Date) : IsDate x s ↔ y = x := by
          rw [IsDate, ← Date.readIsoDate?_eq_some_iff, hread, Option.some.injEq]
        cases a <;> simp [date, Gives, hempty, hread, hsame]

/-- The range from the start of one day to the end of another that is not before it. -/
def Span (isText : Date → String → Prop) (d : Dates) (r : DateRange) : Prop :=
  ∃ a b, Gives isText d.start a ∧ Gives isText d.stop b ∧ areOrdered a b = true ∧
    r = { start := a.map Instant.ofDate, stop := b.map Instant.ofDate }

theorem range_eq_ok_iff : d.range = .ok r ↔ d.Span IsDate r := by
  simp only [Span, ← date_eq_ok_iff, range]
  cases date d.start with
  | error i => simp [bind, Except.bind]
  | ok a =>
    cases date d.stop with
    | error i => simp [bind, Except.bind]
    | ok b =>
      simp only [Except.ok.injEq, ↓existsAndEq, true_and, bind, Except.bind]
      by_cases ho : areOrdered a b = true
      · simp only [ho, if_true, true_and]
        exact ⟨fun h ↦ (Except.ok.inj h).symm, fun h ↦ congrArg Except.ok h.symm⟩
      · simp [ho, throw, throwThe, MonadExceptOf.throw]

theorem Span.isDate (h : d.Span IsPlainDate r) : d.Span IsDate r := by
  obtain ⟨a, b, ha, hb, hrest⟩ := h
  exact ⟨a, b, ha.isDate, hb.isDate, hrest⟩

/-- Every date that is given is in the form that the refusal names. -/
def ArePlain (d : Dates) : Prop :=
  ∀ s, d.start = some s ∨ d.stop = some s → s ≠ "" → ∃ x, IsPlainDate x s

theorem Span.arePlain (h : d.Span IsPlainDate r) : d.ArePlain := by
  have hgives {p : Option String} {a : Option Date} (hp : Gives IsPlainDate p a) (s : String)
      (hs : p = some s) (hne : s ≠ "") : ∃ x, IsPlainDate x s := by
    subst hs
    cases a with
    | none => simp [Gives, hne] at hp
    | some x =>
      obtain ⟨_, ⟨⟩, hx⟩ := hp
      exact ⟨x, hx⟩
  obtain ⟨a, b, ha, hb, -⟩ := h
  exact fun s hs hne ↦ hs.elim (hgives ha s · hne) (hgives hb s · hne)

/-- A text is read as one date only, whichever way it is written. -/
theorem eq_of_isDate {y : Date} (hx : IsDate x s) (hy : IsDate y s) : x = y :=
  Option.some.inj ((Date.readIsoDate?_eq_some_iff.2 hx).symm.trans
    (Date.readIsoDate?_eq_some_iff.2 hy))

theorem Span.plain (h : d.Span IsDate r) (hplain : d.ArePlain) : d.Span IsPlainDate r := by
  have hgives {p : Option String} {a : Option Date}
      (hp : ∀ s, p = some s → s ≠ "" → ∃ x, IsPlainDate x s) (ha : Gives IsDate p a) :
      Gives IsPlainDate p a := by
    cases a with
    | none => exact ha
    | some x =>
      obtain ⟨s, rfl, hx⟩ := ha
      have hne : s ≠ "" := by
        rintro rfl
        cases readIsoDate?_empty.symm.trans (Date.readIsoDate?_eq_some_iff.2 hx)
      obtain ⟨y, hy⟩ := hp s rfl hne
      exact ⟨s, rfl, eq_of_isDate hx hy.isDate ▸ hy⟩
  obtain ⟨a, b, ha, hb, hrest⟩ := h
  exact ⟨a, b, hgives (fun s hs ↦ hplain s (.inl hs)) ha, hgives (fun s hs ↦ hplain s (.inr hs)) hb,
    hrest⟩

/-- Days in order make a range in order, since it ends with the last of them. -/
theorem Span.isOrdered (h : d.Span isText r) : r.isOrdered = true := by
  obtain ⟨a, b, -, -, ho, rfl⟩ := h
  rcases a with _ | a <;> rcases b with _ | b
  · rfl
  · rfl
  · rfl
  · have hle : a.number ≤ b.number := of_decide_eq_true ho
    have hbounds : Instant.ofDate a ≤ (Instant.ofDate b).endOfDay := by
      change a.number * Instant.dayLength ≤ (Instant.ofDate b).day * Instant.dayLength + _
      rw [Instant.day_ofDate]
      exact Nat.le_add_right_of_le (Nat.mul_le_mul_right _ hle)
    simpa only [DateRange.isOrdered, DateRange.last, Option.map_some, Instant.resolveEnd,
      Bool.false_eq_true, if_false] using decide_eq_true hbounds

theorem Span.bounds (h : d.Span isText r) : r.start.map Instant.midnight = r.start ∧
    r.last = r.stop.map Instant.endOfDay := by
  obtain ⟨a, b, -, -, -, rfl⟩ := h
  have hmidnight (x : Date) : (Instant.ofDate x).midnight = Instant.ofDate x := by
    rw [Instant.midnight, Instant.day_ofDate, Instant.ofDate]
  refine ⟨?_, rfl⟩
  cases a <;> simp [hmidnight]

end Dates

namespace Call

/-- The dates of a call that has a range. -/
def dates? : Call → Option Dates
  | .dashboard _ _ d _ _ | .events _ d _ _ _ _ _ _ | .stats _ d | .summary _ d _ _ _ _ _
  | .series _ d _ _ => some d
  | .ingest _ | .ingestMany _ | .widget _ _ _ => none

/-- A call with dates that make no range is a bad request, and the service is not asked. -/
theorem answer_of_bad_dates (hd : call.dates? = some d) {i : DateIssue} (h : d.range = .error i)
    (s : Service) (now : Instant) (t : Tenant) :
    call.answer s now t = (some (.detail 400 i.message), s) := by
  cases call <;> cases hd <;> simp [answer, within, h, badDates]

end Call

/-- Two dates are taken exactly if each is missing, empty or in one of the forms of a date, and the
second is not before the first. The range then goes from the midnight of the first day to the end of
the second, and passes its own test. Any other call is refused as a bad request. The forms are those
of the documentation alone exactly if what is taken is in the form that the refusal names. -/
theorem range_spec (d : Dates) :
    (∀ r, d.range = .ok r ↔ d.Span IsDate r) ∧
      (∀ r, d.range = .ok r → r.isOrdered = true ∧ r.start.map Instant.midnight = r.start ∧
        r.last = r.stop.map Instant.endOfDay) ∧
      (∀ i, d.range = .error i → ∀ call : Call, call.dates? = some d → ∀ s now t,
        call.answer s now t = (some (.detail 400 i.message), s)) ∧
      ((∀ r, d.range = .ok r ↔ d.Span IsPlainDate r) ↔ ∀ r, d.range = .ok r → d.ArePlain) := by
  refine ⟨fun r ↦ Dates.range_eq_ok_iff, fun r hr ↦ ?_, fun i hi call hd ↦
    Call.answer_of_bad_dates hd hi, fun h r hr ↦ ((h r).1 hr).arePlain, fun h r ↦ ⟨fun hr ↦ ?_,
    fun hr ↦ Dates.range_eq_ok_iff.2 hr.isDate⟩⟩
  · have hspan := Dates.range_eq_ok_iff.1 hr
    exact ⟨hspan.isOrdered, hspan.bounds⟩
  · exact (Dates.range_eq_ok_iff.1 hr).plain (h r hr)

/-- The dates of a range of two days, and the call that asks for it with the days exchanged. -/
theorem range_spec_two_days :
    Dates.range ⟨some "2024-01-15", some "2024-01-16"⟩ =
        .ok { start := some (.ofDate ⟨2024, 1, 15⟩), stop := some (.ofDate ⟨2024, 1, 16⟩) } ∧
      Dates.range ⟨some "2024-01-16", some "2024-01-15"⟩ = .error .order ∧
      ∀ s now t, (Call.stats 1 ⟨some "2024-01-16", some "2024-01-15"⟩).answer s now t =
        (some (.detail 400 "End date must be on or after start date"), s) := by
  have hdate (x : Date) (hx : x.IsReal) : IsDate x x.text := ⟨hx, .text⟩
  have horder : Dates.range ⟨some "2024-01-16", some "2024-01-15"⟩ = .error .order := by decide
  refine ⟨((range_spec _).1 _).2 ⟨some ⟨2024, 1, 15⟩, some ⟨2024, 1, 16⟩, ⟨_, rfl, ?_⟩,
    ⟨_, rfl, ?_⟩, by decide, rfl⟩, horder, fun s now t ↦ ?_⟩
  · exact hdate ⟨2024, 1, 15⟩ (by decide)
  · exact hdate ⟨2024, 1, 16⟩ (by decide)
  · exact (range_spec _).2.2.1 .order horder (.stats 1 _) rfl s now t

/-- A date without hyphens is taken, and with two bytes of anything behind it. -/
theorem dateOfDigits_is_taken :
    Dates.range ⟨some "20240115", some "20240116ab"⟩ =
        .ok { start := some (.ofDate ⟨2024, 1, 15⟩), stop := some (.ofDate ⟨2024, 1, 16⟩) } ∧
      ¬∃ x, IsPlainDate x "20240115" := by
  refine ⟨by decide, fun ⟨x, hx, hs⟩ ↦ ?_⟩
  have hsize := Date.utf8ByteSize_text hx
  rw [← hs] at hsize
  cases hsize

end Footfall.Http
