import Footfall.Field.Read
import Mathlib.Tactic.IntervalCases
import Mathlib.Data.Nat.Init
import Mathlib.Data.List.TakeWhile

/-!
Dates of the calendar and their texts. The text of a date is read back as that date, the number of a
day gives back the date that has it, and the text under which an instant is stored is read back as
the instant.
-/

namespace Footfall

theorem toList_padded_two {n : Nat} (h : n < 100) :
    (padded 2 n).toList = [Nat.digitChar (n / 10), Nat.digitChar (n % 10)] := by
  interval_cases n <;> decide

/-- A number of more digits is that of its front followed by its last digit. -/
theorem toList_padded_succ {w n : Nat} (hw : 0 < w) :
    (padded (w + 1) n).toList = (padded w (n / 10)).toList ++ [Nat.digitChar (n % 10)] := by
  simp only [padded, String.toList_ofList]
  by_cases h : n < 10
  · have hdiv : n / 10 = 0 := by omega
    rw [hdiv, Nat.toDigits_of_lt_base h, Nat.toDigits_of_lt_base (by decide), Nat.mod_eq_of_lt h]
    obtain ⟨w, rfl⟩ := Nat.exists_eq_add_one.2 hw
    simp [Nat.digitChar, List.replicate_succ']
  · rw [Nat.toDigits_of_base_le (by decide) (by omega)]
    simp [← List.append_assoc]

theorem toList_padded_four {n : Nat} (h : n < 10000) :
    (padded 4 n).toList =
      [Nat.digitChar (n / 1000), Nat.digitChar (n / 100 % 10), Nat.digitChar (n / 10 % 10),
        Nat.digitChar (n % 10)] := by
  rw [toList_padded_succ (by decide), toList_padded_succ (by decide),
    toList_padded_two (by omega)]
  simp [Nat.div_div_eq_div_mul]

theorem toList_padded_six {n : Nat} (h : n < 1000000) :
    (padded 6 n).toList =
      [Nat.digitChar (n / 100000), Nat.digitChar (n / 10000 % 10), Nat.digitChar (n / 1000 % 10),
        Nat.digitChar (n / 100 % 10), Nat.digitChar (n / 10 % 10), Nat.digitChar (n % 10)] := by
  rw [toList_padded_succ (by decide), toList_padded_succ (by decide),
    toList_padded_four (by omega)]
  simp [Nat.div_div_eq_div_mul]

theorem digit?_digitChar {n : Nat} (h : n < 10) : Time.digit? (Nat.digitChar n) = some n := by
  interval_cases n <;> rfl

theorem digits?_zero (cs : List Char) : Time.digits? 0 cs = some (0, cs) := rfl

theorem digits?_succ (n : Nat) (c : Char) (cs : List Char) :
    Time.digits? (n + 1) (c :: cs) = (Time.digit? c).bind fun d ↦
      (Time.digits? n cs).bind fun p ↦ some (d * 10 ^ n + p.1, p.2) := rfl

theorem not_isBlank_digitChar {n : Nat} (h : n < 10) :
    Text.isBlank (Nat.digitChar n) = false := by
  interval_cases n <;> decide

theorem toNat_digitChar {n : Nat} (h : n < 10) : (Nat.digitChar n).toNat = n + 48 := by
  interval_cases n <;> rfl

/-- Six digits are the fraction that they spell. -/
theorem millionths_padded {n : Nat} (h : n < 1000000) :
    Time.millionths (padded 6 n).toList = n := by
  have hmod (k : Nat) : k % 10 < 10 := Nat.mod_lt k (by decide)
  simp only [Time.millionths, Text.natural, toList_padded_six h, List.cons_append,
    List.nil_append, List.take_succ_cons, List.take_zero, List.foldl_cons, List.foldl_nil,
    toNat_digitChar (hmod _), toNat_digitChar (show n / 100000 < 10 by omega)]
  omega

theorem all_isDigit_padded {n : Nat} (h : n < 1000000) :
    ∀ c ∈ (padded 6 n).toList, c.isDigit = true := by
  have hmod (k : Nat) : k % 10 < 10 := Nat.mod_lt k (by decide)
  have hfirst : n / 100000 < 10 := by omega
  simp [toList_padded_six h, hmod, hfirst]

namespace Date

variable {d : Date}

theorem IsReal.month_lt (h : d.IsReal) : d.month < 100 := by
  have := h.2.2.2.1
  omega

theorem IsReal.day_lt (h : d.IsReal) : d.day < 100 := by
  obtain ⟨-, -, hm, hm', -, hday⟩ := h
  refine Nat.lt_of_le_of_lt hday ?_
  unfold monthLength monthLengths
  generalize isLeap d.year = leap
  interval_cases d.month <;> cases leap <;> decide

theorem toList_text_of_lt (hy : d.year < 10000) (hm : d.month < 100) (hd : d.day < 100) :
    d.text.toList =
      [Nat.digitChar (d.year / 1000), Nat.digitChar (d.year / 100 % 10),
        Nat.digitChar (d.year / 10 % 10), Nat.digitChar (d.year % 10), '-',
        Nat.digitChar (d.month / 10), Nat.digitChar (d.month % 10), '-',
        Nat.digitChar (d.day / 10), Nat.digitChar (d.day % 10)] := by
  simp [text, String.toList_append, toList_padded_four hy, toList_padded_two hm,
    toList_padded_two hd]

theorem toList_text (h : d.IsReal) :
    d.text.toList =
      [Nat.digitChar (d.year / 1000), Nat.digitChar (d.year / 100 % 10),
        Nat.digitChar (d.year / 10 % 10), Nat.digitChar (d.year % 10), '-',
        Nat.digitChar (d.month / 10), Nat.digitChar (d.month % 10), '-',
        Nat.digitChar (d.day / 10), Nat.digitChar (d.day % 10)] :=
  toList_text_of_lt (Nat.lt_succ_of_le h.2.1) h.month_lt h.day_lt

theorem checkDate_of_isReal (h : d.IsReal) : Time.checkDate d = .ok d := by
  obtain ⟨hy, hy', hm, hm', hd, hd'⟩ := h
  rw [Time.checkDate, if_neg (by omega), if_neg (by omega), if_neg (by omega)]

/-- A text of three numbers is read as those numbers, which are then checked. -/
theorem readDate?_of_lt (hy : d.year < 10000) (hm : d.month < 100) (hd : d.day < 100) :
    Time.readDate? d.text.toList = some (Time.checkDate d) := by
  have hy' : d.year / 1000 < 10 := by omega
  have hm' : d.month / 10 < 10 := by omega
  have hd' : d.day / 10 < 10 := by omega
  have hmod (n : Nat) : n % 10 < 10 := Nat.mod_lt n (by decide)
  have hform : Time.isDateForm d.text.toList = true := by
    simp [toList_text_of_lt hy hm hd, Time.isDateForm, hy', hm', hd', hmod]
  have hparts : Time.dateParts? d.text.toList = some d := by
    simp only [toList_text_of_lt hy hm hd, Time.dateParts?, digits?_zero, digits?_succ,
      digit?_digitChar, hy', hm', hd', hmod, Option.bind_eq_bind, Option.bind_some,
      List.drop_succ_cons, List.drop_zero]
    refine congrArg some ?_
    obtain ⟨y, m, d⟩ := d
    simp only [Date.mk.injEq]
    omega
  rw [Time.readDate?, if_pos hform, hparts, Option.map_some]

theorem readDate?_text (h : d.IsReal) : Time.readDate? d.text.toList = some (.ok d) := by
  rw [readDate?_of_lt (Nat.lt_succ_of_le h.2.1) h.month_lt h.day_lt, checkDate_of_isReal h]

theorem strip_text (h : d.IsReal) : Text.strip d.text = d.text := by
  have hy : d.year / 1000 < 10 := by
    have := h.2.1
    omega
  have hday : d.day % 10 < 10 := Nat.mod_lt _ (by decide)
  rw [Text.strip, Text.trimBy, toList_text h,
    List.dropWhile_cons_of_neg (by simp [not_isBlank_digitChar hy])]
  simp only [List.reverse_cons, List.reverse_nil, List.nil_append, List.cons_append]
  rw [List.dropWhile_cons_of_neg (by simp [not_isBlank_digitChar hday])]
  rw [← String.toList_inj, toList_text h]
  simp

/-- A day that is split into a month and the days before it is put together again. -/
theorem sum_splitMonth (ls : List Nat) (m n : Nat) :
    ((ls.take ((splitMonth ls m n).1 - m)).foldl (· + ·) 0) + (splitMonth ls m n).2 = n := by
  induction ls generalizing m n with
  | nil => simp [splitMonth]
  | cons l ls ih =>
    unfold splitMonth
    split
    · simp
    · have hle := splitMonth_le ls (m + 1) (n - l)
      have hsum := ih (m + 1) (n - l)
      obtain ⟨k, hk⟩ := Nat.exists_eq_add_of_le hle
      simp only [hk, Nat.add_sub_cancel_left, ← List.sum_eq_foldl_nat] at hsum ⊢
      rw [show m + 1 + k - m = k + 1 by omega, List.take_succ_cons, List.sum_cons]
      omega

/-- The days before a year are those of the periods of 400, 100, 4 and 1 years before it. -/
theorem yearStart_of_periods (a : Nat) {b c d : Nat} (hb : b ≤ 3) (hc : c ≤ 24) (hd : d ≤ 3) :
    yearStart (400 * a + 100 * b + 4 * c + d + 1) =
      146097 * a + 36524 * b + 1461 * c + 365 * d := by
  have h4 : (400 * a + 100 * b + 4 * c + d) / 4 = 100 * a + 25 * b + c := by omega
  have h100 : (400 * a + 100 * b + 4 * c + d) / 100 = 4 * a + b := by omega
  have h400 : (400 * a + 100 * b + 4 * c + d) / 400 = a := by omega
  simp only [yearStart, Nat.add_sub_cancel, h4, h100, h400]
  omega

/-- A day that is split into its year and the days before it is put together again. -/
theorem yearStart_splitYear (n : Nat) : yearStart (splitYear n).1 + (splitYear n).2 = n := by
  simp only [splitYear]
  rw [yearStart_of_periods _ (by omega) (by omega) (by omega)]
  omega

theorem number_ofNumber (n : Nat) : (ofNumber n).number = n := by
  have hmonth := sum_splitMonth (monthLengths (isLeap (splitYear n).1)) 1 (splitYear n).2
  have hyear := yearStart_splitYear n
  simp only [number, dayOfYear, ofNumber, Nat.add_sub_cancel]
  omega

/-- A day that lies within months falls into one of them. -/
theorem splitMonth_spec (ls : List Nat) (m n : Nat) (h : n < ls.sum) :
    (splitMonth ls m n).1 < m + ls.length ∧
      (splitMonth ls m n).2 < ls.getD ((splitMonth ls m n).1 - m) 0 := by
  induction ls generalizing m n with
  | nil => simp at h
  | cons l ls ih =>
    rw [List.sum_cons] at h
    unfold splitMonth
    split
    · rename_i hlt
      simpa using hlt
    · obtain ⟨hmonth, hday⟩ := ih (m + 1) (n - l) (by omega)
      have hle := splitMonth_le ls (m + 1) (n - l)
      refine ⟨by rw [List.length_cons]; omega, ?_⟩
      rwa [show (splitMonth ls (m + 1) (n - l)).1 - m =
        (splitMonth ls (m + 1) (n - l)).1 - (m + 1) + 1 by omega, List.getD_cons_succ]

theorem sum_monthLengths (leap : Bool) :
    (monthLengths leap).sum = if leap then 366 else 365 := by
  cases leap <;> rfl

/-- The last day of a year of 366 days is the only one with so many before it. -/
theorem isLeap_of_splitYear {n : Nat} (h : (splitYear n).2 = 365) :
    isLeap (splitYear n).1 = true := by
  simp only [splitYear] at h
  have hfour : (splitYear n).1 % 4 = 0 := by
    simp only [splitYear]
    omega
  have hhundred : (splitYear n).1 % 100 ≠ 0 ∨ (splitYear n).1 % 400 = 0 := by
    simp only [splitYear]
    omega
  simpa [isLeap, hfour] using hhundred

theorem splitYear_snd_lt (n : Nat) :
    (splitYear n).2 < (monthLengths (isLeap (splitYear n).1)).sum := by
  have hle : (splitYear n).2 ≤ 365 := by
    simp only [splitYear]
    omega
  rw [sum_monthLengths]
  cases hleap : isLeap (splitYear n).1 with
  | true => exact Nat.lt_succ_of_le hle
  | false =>
    refine Nat.lt_of_le_of_ne hle fun heq ↦ ?_
    rw [isLeap_of_splitYear heq] at hleap
    cases hleap

theorem splitYear_fst_le {n : Nat} (h : n < 3652059) :
    1 ≤ (splitYear n).1 ∧ (splitYear n).1 ≤ 9999 := by
  have hstart := yearStart_splitYear n
  refine ⟨by simp only [splitYear]; omega, ?_⟩
  by_contra hlate
  simp only [yearStart] at hstart
  omega

theorem isReal_ofNumber {n : Nat} (h : n < 3652059) : (ofNumber n).IsReal := by
  obtain ⟨hyear, hyear'⟩ := splitYear_fst_le h
  obtain ⟨hmonth, hday⟩ := splitMonth_spec _ 1 _ (splitYear_snd_lt n)
  have hfirst := splitMonth_le (monthLengths (isLeap (splitYear n).1)) 1 (splitYear n).2
  have hlength (leap : Bool) : (monthLengths leap).length = 12 := by cases leap <;> rfl
  rw [hlength] at hmonth
  refine ⟨hyear, hyear', hfirst, ?_, ?_, ?_⟩
  · exact Nat.le_of_lt_succ hmonth
  · exact Nat.succ_pos _
  · exact hday

end Date

namespace Time

theorem digits?_two {n : Nat} (h : n < 100) (cs : List Char) :
    digits? 2 ((padded 2 n).toList ++ cs) = some (n, cs) := by
  have hdiv : n / 10 < 10 := by omega
  have hmod : n % 10 < 10 := Nat.mod_lt n (by decide)
  simp only [toList_padded_two h, List.cons_append, List.nil_append, digits?_succ, digits?_zero,
    digit?_digitChar hdiv, digit?_digitChar hmod, Option.bind_some]
  refine congrArg some (Prod.ext ?_ rfl)
  dsimp only
  omega

theorem readSeconds?_padded {s f : Nat} (hs : s < 60) (hf : f < 1000000) :
    readSeconds? ['.'] (':' :: ((padded 2 s).toList ++ '.' :: (padded 6 f).toList)) =
      some (s, f, []) := by
  have hdigits := all_isDigit_padded hf
  have htake : (padded 6 f).toList.takeWhile Char.isDigit = (padded 6 f).toList :=
    List.takeWhile_eq_self_iff.2 hdigits
  have hdrop : (padded 6 f).toList.dropWhile Char.isDigit = [] :=
    List.dropWhile_eq_nil_iff.2 hdigits
  have hne : (padded 6 f).toList.isEmpty = false := by
    simp [toList_padded_six hf]
  simp only [readSeconds?, digits?_two (show s < 100 by omega), Option.bind_eq_bind,
    Option.bind_some, List.mem_singleton, if_true, htake, hdrop, hne, millionths_padded hf]
  rfl

/-- The time of day of a stored text. -/
theorem readClock?_padded {h m s f : Nat} (hh : h < 24) (hm : m < 60) (hs : s < 60)
    (hf : f < 1000000) :
    readClock? ['.'] ((padded 2 h).toList ++ ':' :: ((padded 2 m).toList ++
      ':' :: ((padded 2 s).toList ++ '.' :: (padded 6 f).toList))) = some (ofClock h m s f, []) := by
  have hin : h ≤ 23 ∧ m ≤ 59 ∧ s ≤ 59 := by omega
  simp only [readClock?, digits?_two (show h < 100 by omega), digits?_two (show m < 100 by omega),
    readSeconds?_padded hs hf, Option.bind_eq_bind, Option.bind_some, if_pos hin]

end Time

namespace Instant

variable {t : Instant} {d : Date}

/-- An instant is before a midnight if its day is before. -/
theorem lt_ofDate_iff_day : t < ofDate d ↔ t.day < d.number := by
  rw [day, Nat.div_lt_iff_lt_mul (by decide)]
  rfl

theorem ofDate_le_iff_day : ofDate d ≤ t ↔ d.number ≤ t.day := by
  rw [← Nat.not_lt, ← lt_ofDate_iff_day]
  exact Nat.not_lt.symm

theorem day_lt (h : t.micros < limit) : t.day < 3652059 := by
  rw [limit, dayLength_eq] at h
  rw [day, dayLength_eq]
  omega

/-- An instant is its day and the time since its midnight. -/
theorem micros_eq (t : Instant) : (ofDate t.date).micros +
    Time.ofClock t.hourOfDay t.minuteOfHour t.secondOfMinute t.fraction = t.micros := by
  have hdate : (ofDate t.date).micros = t.day * dayLength := by
    rw [ofDate, date, Date.number_ofNumber]
  rw [hdate]
  simp only [Time.ofClock, day, hourOfDay, minuteOfHour, secondOfMinute, fraction, sinceMidnight,
    dayLength_eq, hour, second]
  omega

theorem hourOfDay_lt (t : Instant) : t.hourOfDay < 24 := by
  rw [hourOfDay, sinceMidnight, dayLength_eq, hour, second]
  omega

theorem toList_storedText (t : Instant) : t.storedText.toList =
    t.date.text.toList ++ ' ' :: ((padded 2 t.hourOfDay).toList ++
      ':' :: ((padded 2 t.minuteOfHour).toList ++ ':' :: ((padded 2 t.secondOfMinute).toList ++
        '.' :: (padded 6 t.fraction).toList))) := by
  simp [storedText, fullText, clockText, String.toList_append, List.append_assoc]

/-- The text under which an instant is stored is read back as the instant, without an offset. -/
theorem readTimestamp?_storedText (h : t.micros < limit) :
    Time.readTimestamp? t.storedText.toList = some ⟨t, none⟩ := by
  have hreal : t.date.IsReal := Date.isReal_ofNumber (day_lt h)
  have hlength : t.date.text.toList.length = 10 := by
    simp [Date.toList_text hreal]
  have hclock := Time.readClock?_padded t.hourOfDay_lt (m := t.minuteOfHour) (s := t.secondOfMinute)
    (f := t.fraction) (Nat.mod_lt _ (by decide)) (Nat.mod_lt _ (by decide))
    (Nat.mod_lt _ (by decide))
  rw [toList_storedText, Time.readTimestamp?, List.take_left' hlength, List.drop_left' hlength,
    Date.readDate?_text hreal]
  simp only [Except.toOption, Option.bind_eq_bind, Option.bind_some, hclock, micros_eq]
  rfl

end Instant

end Footfall
