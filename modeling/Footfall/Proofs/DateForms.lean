import Footfall.Proofs.Labels
import Footfall.Proofs.Numerals

/-!
The forms in which a date is read. The reader takes those of the standard, with hyphens or without,
by month and day or by week and weekday, and looks behind a form without hyphens no further than the
number of bytes. A day that is named by a week is the one that has it in the calendar.
-/

namespace Footfall

namespace Date

variable {d : Date} {n y r : Nat}

theorem eq_of_number_eq {a b : Date} (ha : a.IsReal) (hb : b.IsReal) (h : a.number = b.number) :
    a = b := by
  rcases IsBefore.trichotomy a b with hab | hab | hba
  · exact absurd h (number_lt_of_isBefore ha hb hab).ne
  · exact hab
  · exact absurd h (number_lt_of_isBefore hb ha hba).ne'

theorem ofNumber_number (h : d.IsReal) : ofNumber d.number = d :=
  eq_of_number_eq (isReal_ofNumber (number_lt h)) h (number_ofNumber _)

theorem splitYear_snd_lt_length (n : Nat) :
    (splitYear n).2 < 365 + (isLeap (splitYear n).1).toNat := by
  have h := splitYear_snd_lt n
  rw [sum_monthLengths] at h
  cases hleap : isLeap (splitYear n).1 <;> simpa [hleap] using h

/-- A day is split into its year and the days before it in that year, and in no other way. -/
theorem splitYear_eq (hy : 1 ≤ y) (hr : r < 365 + (isLeap y).toNat)
    (hn : yearStart y + r = n) : splitYear n = (y, r) := by
  have hz : 1 ≤ (splitYear n).1 := by
    simp only [splitYear]
    omega
  have hstart := yearStart_splitYear n
  have hlt := splitYear_snd_lt_length n
  generalize splitYear n = p at hz hstart hlt
  obtain ⟨z, q⟩ := p
  dsimp only at hz hstart hlt
  have hnext := yearStart_succ hy
  have hnext' := yearStart_succ hz
  -- the days of another year end before this one starts, or start after it ends
  rcases Nat.lt_trichotomy y z with h | rfl | h
  · have : yearStart (y + 1) ≤ yearStart z := yearStart_le h
    omega
  · rw [show q = r by omega]
  · have : yearStart (z + 1) ≤ yearStart y := yearStart_le h
    omega

end Date

namespace Time

open Date

variable {d : Date} {y w k : Nat}

/-- How many days of a year are before its first Thursday, whose week is the first of the year. -/
def firstThursday (y : Nat) : Nat := (10 - yearStart y % 7) % 7

/-- The day of a week and a weekday, which are counted from 1. -/
def weekDay (y w k : Nat) : Int := yearStart y + firstThursday y + 7 * (w - 1) + k - 4

/-- A year has a week if its Thursday is in the year. -/
def HasWeek (y w : Nat) : Prop := firstThursday y + 7 * (w - 1) < 365 + (isLeap y).toNat

theorem hasWeek_of_le (hw : w ≤ 52) : HasWeek y w := by
  unfold HasWeek firstThursday
  omega

theorem hasWeek_last_iff : HasWeek y 53 ↔
    (weekday (yearStart y) == 3 || (weekday (yearStart y) == 2 && isLeap y)) = true := by
  unfold HasWeek firstThursday weekday
  simp only [Bool.or_eq_true, Bool.and_eq_true, beq_iff_eq]
  cases isLeap y <;>
    simp only [Bool.toNat_true, Bool.toNat_false, Bool.false_eq_true, and_true, and_false,
      or_false] <;>
    omega

theorem weekStart_add (y w k : Nat) :
    (if weekday (yearStart y) ≤ 3 then (yearStart y : Int) - weekday (yearStart y)
      else yearStart y + 7 - weekday (yearStart y)) + 7 * (w - 1) + (k - 1) = weekDay y w k := by
  unfold weekDay firstThursday weekday
  split <;> omega

/-- What is read as a week names a week that the year has, and a day that the calendar has. -/
theorem ofWeek?_iff_weekDay : ofWeek? y w k = some d ↔
    (1 ≤ y ∧ y ≤ 9999 ∧ 1 ≤ w ∧ w ≤ 53 ∧ 1 ≤ k ∧ k ≤ 7) ∧ HasWeek y w ∧
      ∃ n : Nat, n < 3652059 ∧ (n : Int) = weekDay y w k ∧ d = ofNumber n := by
  unfold ofWeek?
  simp only [weekStart_add]
  split
  · rename_i hout
    simp only [false_iff, reduceCtorEq]
    rintro ⟨hin, -⟩
    omega
  · rename_i hin
    split
    · rename_i hlong
      simp only [false_iff, reduceCtorEq]
      rintro ⟨-, hweek, -⟩
      rw [hlong.1, hasWeek_last_iff] at hweek
      simp [hweek] at hlong
    · rename_i hlong
      have hweek : HasWeek y w := by
        by_cases hw : w = 53
        · rw [hw, hasWeek_last_iff]
          by_contra hshort
          exact hlong ⟨hw, by rwa [Bool.not_eq_true', Bool.eq_false_iff]⟩
        · exact hasWeek_of_le (by omega)
      split
      · rename_i hout
        simp only [false_iff, reduceCtorEq]
        rintro ⟨-, -, n, hn, heq, -⟩
        omega
      · rename_i hrange
        rw [Option.some.injEq]
        constructor
        · rintro rfl
          exact ⟨by omega, hweek, (weekDay y w k).toNat, by omega, by omega, rfl⟩
        · rintro ⟨-, -, n, hn, heq, rfl⟩
          rw [← heq, Int.toNat_natCast]

theorem thursday_weekDay {n : Nat} (hw : 1 ≤ w) (hk : 1 ≤ k) (hk' : k ≤ 7)
    (hn : (n : Int) = weekDay y w k) :
    weekday n + 1 = k ∧ thursday n = yearStart y + (firstThursday y + 7 * (w - 1)) := by
  unfold weekDay firstThursday at hn
  unfold thursday weekday firstThursday
  omega

/-- The day that is named by a week is the one of the calendar that has the year of the week, its
number and the weekday. -/
theorem ofWeek?_eq_some_iff : ofWeek? y w k = some d ↔
    d.IsReal ∧ isoYear d.number = y ∧ isoWeek d.number = w ∧ weekday d.number + 1 = k := by
  rw [ofWeek?_iff_weekDay]
  constructor
  · rintro ⟨⟨hy, -, hw, -, hk, hk'⟩, hweek, n, hn, heq, rfl⟩
    obtain ⟨hday, hthursday⟩ := thursday_weekDay hw hk hk' heq
    have hsplit := splitYear_eq hy hweek hthursday.symm
    refine ⟨isReal_ofNumber hn, ?_, ?_, by rw [number_ofNumber, hday]⟩
    · rw [number_ofNumber, isoYear, hsplit]
    · rw [number_ofNumber, isoWeek, hsplit]
      unfold firstThursday
      omega
  · rintro ⟨hd, rfl, rfl, rfl⟩
    have hstart := yearStart_splitYear (thursday d.number)
    have hlt := splitYear_snd_lt_length (thursday d.number)
    have hle := splitYear_snd_le (thursday d.number)
    obtain ⟨hy, hy'⟩ := splitYear_fst_le (thursday_lt (number_lt hd))
    have hk := Nat.mod_lt d.number (show 0 < 7 by decide)
    refine ⟨⟨hy, hy', ?_, ?_, ?_, ?_⟩, ?_, d.number, number_lt hd, ?_, (ofNumber_number hd).symm⟩
    · exact Nat.succ_pos _
    · unfold isoWeek
      omega
    · exact Nat.succ_pos _
    · exact hk
    · unfold HasWeek isoYear isoWeek firstThursday
      unfold thursday weekday at hstart hlt ⊢
      omega
    · unfold weekDay isoYear isoWeek firstThursday
      unfold thursday weekday at hstart ⊢
      omega

/-- The mark between the parts of a date, if there is one. -/
def mark (hyphen : Bool) : List Char := if hyphen then ['-'] else []

theorem skipMark_eq_some_iff {hyphen : Bool} {cs rest : List Char} :
    skipMark hyphen cs = some rest ↔ cs = mark hyphen ++ rest := by
  cases hyphen with
  | false => cases cs <;> simp [skipMark, mark]
  | true =>
    cases cs with
    | nil => simp [skipMark, mark]
    | cons c cs => by_cases hc : c = '-' <;> simp [skipMark, mark, hc]

/-- What is read behind the year and the letter of a week. -/
def readWeek? (hyphen : Bool) (y : Nat) (cs : List Char) : Option Date := do
  let (week, rest) ← digits? 2 cs
  if rest.isEmpty then ofWeek? y week 1
  else do
    let (weekday, _) ← digits? 1 (← skipMark hyphen rest)
    ofWeek? y week weekday

/-- What is read behind the year of a date with a month. -/
def readMonth? (hyphen : Bool) (y : Nat) (cs : List Char) : Option Date := do
  let (month, rest) ← digits? 2 cs
  let (day, _) ← digits? 2 (← skipMark hyphen rest)
  (checkDate ⟨y, month, day⟩).toOption

theorem toOption_checkDate {e : Date} :
    (checkDate e).toOption = some d ↔ d.IsReal ∧ e = d := by
  constructor
  · intro h
    unfold checkDate at h
    split at h
    · cases h
    · split at h
      · cases h
      · split at h
        · cases h
        · cases h
          exact ⟨⟨by omega, by omega, by omega, by omega, by omega, by omega⟩, rfl⟩
  · rintro ⟨hd, rfl⟩
    rw [checkDate_of_isReal hd]
    rfl

theorem readMonth?_eq_some_iff {hyphen : Bool} {cs : List Char} :
    readMonth? hyphen y cs = some d ↔ d.IsReal ∧ d.year = y ∧
      ∃ behind, cs = (padded 2 d.month).toList ++ (mark hyphen ++
        ((padded 2 d.day).toList ++ behind)) := by
  simp only [readMonth?, Option.bind_eq_bind, Option.bind_eq_some_iff, Prod.exists,
    digits?_eq_some_iff, skipMark_eq_some_iff, toOption_checkDate]
  constructor
  · rintro ⟨m, rest, ⟨-, rfl⟩, _, rfl, k, behind, ⟨-, rfl⟩, hd, rfl⟩
    exact ⟨hd, rfl, behind, rfl⟩
  · rintro ⟨hd, rfl, behind, rfl⟩
    obtain ⟨-, hm, hday⟩ := hd.parts_lt
    exact ⟨_, _, ⟨hm, rfl⟩, _, rfl, _, _, ⟨hday, rfl⟩, hd, rfl⟩

theorem readWeek?_eq_some_iff {hyphen : Bool} {cs : List Char} :
    readWeek? hyphen y cs = some d ↔ d.IsReal ∧ isoYear d.number = y ∧
      (weekday d.number = 0 ∧ cs = (padded 2 (isoWeek d.number)).toList ∨
        ∃ behind, cs = (padded 2 (isoWeek d.number)).toList ++ (mark hyphen ++
          ((padded 1 (weekday d.number + 1)).toList ++ behind))) := by
  simp only [readWeek?, Option.bind_eq_bind, Option.bind_eq_some_iff, Prod.exists,
    digits?_eq_some_iff]
  constructor
  · rintro ⟨w, rest, ⟨-, rfl⟩, h⟩
    split at h
    · rename_i hrest
      obtain rfl := List.isEmpty_iff.1 hrest
      obtain ⟨hd, hy, rfl, hk⟩ := ofWeek?_eq_some_iff.1 h
      exact ⟨hd, hy, .inl ⟨Nat.succ.inj hk, List.append_nil _⟩⟩
    · simp only [Option.bind_eq_some_iff, Prod.exists, digits?_eq_some_iff,
        skipMark_eq_some_iff] at h
      obtain ⟨_, rfl, k, behind, ⟨-, rfl⟩, h⟩ := h
      obtain ⟨hd, hy, rfl, rfl⟩ := ofWeek?_eq_some_iff.1 h
      exact ⟨hd, hy, .inr ⟨behind, rfl⟩⟩
  · rintro ⟨hd, rfl, ⟨hmonday, rfl⟩ | ⟨behind, rfl⟩⟩
    · refine ⟨_, [], ⟨isoWeek_lt _, (List.append_nil _).symm⟩, ?_⟩
      exact ofWeek?_eq_some_iff.2 ⟨hd, rfl, rfl, by rw [hmonday]⟩
    · refine ⟨_, _, ⟨isoWeek_lt _, rfl⟩, ?_⟩
      have hk : weekday d.number + 1 < 10 := by
        unfold weekday
        omega
      rw [if_neg (by simp [toList_padded_one hk])]
      simp only [Option.bind_eq_some_iff, Prod.exists, digits?_eq_some_iff, skipMark_eq_some_iff]
      exact ⟨_, rfl, _, _, ⟨hk, rfl⟩, ofWeek?_eq_some_iff.2 ⟨hd, rfl, rfl, rfl⟩⟩

/-- What is read behind the four digits of a year. -/
def readBehindYear? (y : Nat) (cs : List Char) : Option Date :=
  let hyphen := cs.head? == some '-'
  match cs.drop (if hyphen then 1 else 0) with
  | 'W' :: rest => readWeek? hyphen y rest
  | rest => readMonth? hyphen y rest

theorem readIsoDate?_eq (size : Nat) (cs : List Char) : readIsoDate? size cs =
    if size = 7 ∨ size = 8 ∨ size = 10 then (digits? 4 cs).bind fun p ↦ readBehindYear? p.1 p.2
    else none := by
  unfold readIsoDate?
  split
  · rename_i hsize
    rw [if_neg (by simpa [not_or, and_assoc] using hsize)]
    rfl
  · rename_i hsize
    have hsize : size = 7 ∨ size = 8 ∨ size = 10 := by
      by_contra hnot
      exact hsize (by simpa [not_or, and_assoc] using hnot)
    rw [if_pos hsize]
    rfl

theorem readBehindYear?_eq_some_iff {cs : List Char} : readBehindYear? y cs = some d ↔
    ∃ hyphen, (∃ week, cs = mark hyphen ++ 'W' :: week ∧ readWeek? hyphen y week = some d) ∨
      ∃ month, cs = mark hyphen ++ month ∧ readMonth? hyphen y month = some d := by
  constructor
  · intro h
    have hsplit : mark (cs.head? == some '-') ++
        cs.drop (if cs.head? == some '-' then 1 else 0) = cs := by
      cases cs with
      | nil => rfl
      | cons c cs => by_cases hc : c = '-' <;> simp [mark, hc]
    unfold readBehindYear? at h
    dsimp only at h
    split at h
    · rename_i week hweek
      rw [hweek] at hsplit
      exact ⟨_, .inl ⟨week, hsplit.symm, h⟩⟩
    · exact ⟨_, .inr ⟨_, hsplit.symm, h⟩⟩
  · rintro ⟨hyphen, ⟨week, rfl, h⟩ | ⟨month, rfl, h⟩⟩
    · cases hyphen <;> exact h
    · -- a month starts with a digit, which is neither a hyphen nor the letter of a week
      obtain ⟨-, -, behind, hmonth⟩ := readMonth?_eq_some_iff.1 h
      obtain ⟨c, rest, hfront⟩ := List.exists_cons_of_ne_nil (toList_padded_ne_nil 2 d.month)
      have hc : c.isDigit = true := isDigit_of_mem_padded (w := 2) (n := d.month) (by simp [hfront])
      obtain ⟨n, hn, rfl⟩ := exists_digitChar hc
      rw [hfront, List.cons_append] at hmonth
      rw [hmonth] at h ⊢
      interval_cases n <;> cases hyphen <;> exact h

end Time

namespace Date

variable {d : Date} {s : String}

/-- The year and the week of a day, with a mark between them. -/
def weekText (d : Date) (mark : String) : String :=
  padded 4 (isoYear d.number) ++ mark ++ "W" ++ padded 2 (isoWeek d.number)

def weekdayText (d : Date) : String := padded 1 (weekday d.number + 1)

/-- Nothing, or two bytes of anything. -/
def IsTail (behind : String) : Prop := behind.utf8ByteSize = 0 ∨ behind.utf8ByteSize = 2

/-- The forms in which a date is read: the documented one first, then the same without hyphens, and
the week with its weekday or, for a Monday, without. What has no hyphens and ends with a day may be
followed by two bytes of anything. -/
inductive HasForm (d : Date) : String → Prop
  | text : HasForm d d.text
  | digits {behind : String} : IsTail behind →
      HasForm d (padded 4 d.year ++ padded 2 d.month ++ padded 2 d.day ++ behind)
  | monday {mark : String} : mark = "" ∨ mark = "-" → weekday d.number = 0 →
      HasForm d (d.weekText mark)
  | week : HasForm d (d.weekText "-" ++ "-" ++ d.weekdayText)
  | weekDigits {behind : String} : IsTail behind →
      HasForm d (d.weekText "" ++ d.weekdayText ++ behind)

theorem isoYear_lt (h : d.IsReal) : isoYear d.number < 10 ^ 4 :=
  Nat.lt_succ_of_le (splitYear_fst_le (thursday_lt (number_lt h))).2

theorem weekday_succ_lt (n : Nat) : weekday n + 1 < 10 ^ 1 := by
  unfold weekday
  omega

theorem utf8ByteSize_text (h : d.IsReal) : d.text.utf8ByteSize = 10 := by
  obtain ⟨hy, hm, hd⟩ := h.parts_lt
  simp only [text, String.utf8ByteSize_append, utf8ByteSize_padded hy, utf8ByteSize_padded hm,
    utf8ByteSize_padded hd]
  rfl

theorem utf8ByteSize_weekText (h : d.IsReal) (mark : String) :
    (d.weekText mark).utf8ByteSize = 7 + mark.utf8ByteSize := by
  have hw : isoWeek d.number < 10 ^ 2 := isoWeek_lt _
  simp only [weekText, String.utf8ByteSize_append, utf8ByteSize_padded (isoYear_lt h),
    utf8ByteSize_padded hw]
  have hletter : "W".utf8ByteSize = 1 := rfl
  omega

theorem utf8ByteSize_weekdayText (d : Date) : d.weekdayText.utf8ByteSize = 1 :=
  utf8ByteSize_padded (weekday_succ_lt _)

/-- What is read as a date by its month, or by its week, has one of the forms. The number of bytes
says what may follow. -/
theorem hasForm_of_readMonth? {hyphen : Bool} {y : Nat} {month : List Char}
    (h : Time.readMonth? hyphen y month = some d)
    (hs : s.toList = (padded 4 y).toList ++ (Time.mark hyphen ++ month))
    (hsize : s.utf8ByteSize = 7 ∨ s.utf8ByteSize = 8 ∨ s.utf8ByteSize = 10) :
    d.IsReal ∧ d.HasForm s := by
  obtain ⟨hd, rfl, behind, rfl⟩ := Time.readMonth?_eq_some_iff.1 h
  refine ⟨hd, ?_⟩
  cases hyphen with
  | false =>
    obtain rfl : s = padded 4 d.year ++ padded 2 d.month ++ padded 2 d.day ++
        String.ofList behind := by
      rw [← String.toList_inj, hs]
      simp [Time.mark]
    obtain ⟨hy, hm, hday⟩ := hd.parts_lt
    simp only [String.utf8ByteSize_append, utf8ByteSize_padded hy, utf8ByteSize_padded hm,
      utf8ByteSize_padded hday] at hsize
    exact .digits (by unfold IsTail; omega)
  | true =>
    obtain rfl : s = d.text ++ String.ofList behind := by
      rw [← String.toList_inj, hs]
      simp [Time.mark, text]
    rw [String.utf8ByteSize_append, utf8ByteSize_text hd] at hsize
    have hnone : String.ofList behind = "" := String.utf8ByteSize_eq_zero_iff.1 (by omega)
    rw [hnone, String.append_empty]
    exact .text

theorem hasForm_of_readWeek? {hyphen : Bool} {y : Nat} {week : List Char}
    (h : Time.readWeek? hyphen y week = some d)
    (hs : s.toList = (padded 4 y).toList ++ (Time.mark hyphen ++ 'W' :: week))
    (hsize : s.utf8ByteSize = 7 ∨ s.utf8ByteSize = 8 ∨ s.utf8ByteSize = 10) :
    d.IsReal ∧ d.HasForm s := by
  obtain ⟨hd, rfl, ⟨hmonday, rfl⟩ | ⟨behind, rfl⟩⟩ := Time.readWeek?_eq_some_iff.1 h
  · obtain rfl : s = d.weekText (if hyphen then "-" else "") := by
      rw [← String.toList_inj, hs]
      cases hyphen <;> simp [Time.mark, weekText]
    exact ⟨hd, .monday (by cases hyphen <;> simp) hmonday⟩
  · refine ⟨hd, ?_⟩
    cases hyphen with
    | false =>
      obtain rfl : s = d.weekText "" ++ d.weekdayText ++ String.ofList behind := by
        rw [← String.toList_inj, hs]
        simp [Time.mark, weekText, weekdayText]
      simp only [String.utf8ByteSize_append, utf8ByteSize_weekText hd,
        utf8ByteSize_weekdayText, String.utf8ByteSize_empty] at hsize
      exact .weekDigits (by unfold IsTail; omega)
    | true =>
      obtain rfl : s = d.weekText "-" ++ "-" ++ d.weekdayText ++ String.ofList behind := by
        rw [← String.toList_inj, hs]
        simp [Time.mark, weekText, weekdayText]
      have hmark : "-".utf8ByteSize = 1 := rfl
      simp only [String.utf8ByteSize_append, utf8ByteSize_weekText hd,
        utf8ByteSize_weekdayText] at hsize
      have hnone : String.ofList behind = "" := String.utf8ByteSize_eq_zero_iff.1 (by omega)
      rw [hnone, String.append_empty]
      exact .week

/-- A date by its month is read, if its size is one of those that are taken. -/
theorem readIsoDate?_of_month (hd : d.IsReal) (hyphen : Bool) (behind : List Char)
    (hs : s.toList = (padded 4 d.year).toList ++ (Time.mark hyphen ++ ((padded 2 d.month).toList ++
      (Time.mark hyphen ++ ((padded 2 d.day).toList ++ behind)))))
    (hsize : s.utf8ByteSize = 7 ∨ s.utf8ByteSize = 8 ∨ s.utf8ByteSize = 10) :
    Time.readIsoDate? s.utf8ByteSize s.toList = some d := by
  rw [Time.readIsoDate?_eq, if_pos hsize, Time.digits?_eq_some_iff.2 ⟨hd.parts_lt.1, hs⟩]
  exact Time.readBehindYear?_eq_some_iff.2
    ⟨hyphen, .inr ⟨_, rfl, Time.readMonth?_eq_some_iff.2 ⟨hd, rfl, behind, rfl⟩⟩⟩

/-- A date by its week likewise, which is a Monday if there is no weekday. -/
theorem readIsoDate?_of_week (hd : d.IsReal) (hyphen : Bool) {week : List Char}
    (hs : s.toList = (padded 4 (isoYear d.number)).toList ++ (Time.mark hyphen ++ 'W' :: week))
    (hweek : weekday d.number = 0 ∧ week = (padded 2 (isoWeek d.number)).toList ∨
      ∃ behind, week = (padded 2 (isoWeek d.number)).toList ++
        (Time.mark hyphen ++ (d.weekdayText.toList ++ behind)))
    (hsize : s.utf8ByteSize = 7 ∨ s.utf8ByteSize = 8 ∨ s.utf8ByteSize = 10) :
    Time.readIsoDate? s.utf8ByteSize s.toList = some d := by
  rw [Time.readIsoDate?_eq, if_pos hsize, Time.digits?_eq_some_iff.2 ⟨isoYear_lt hd, hs⟩]
  exact Time.readBehindYear?_eq_some_iff.2
    ⟨hyphen, .inl ⟨_, rfl, Time.readWeek?_eq_some_iff.2 ⟨hd, rfl, hweek⟩⟩⟩

theorem readIsoDate?_of_hasForm (hd : d.IsReal) (h : d.HasForm s) :
    Time.readIsoDate? s.utf8ByteSize s.toList = some d := by
  have hmark : "-".utf8ByteSize = 1 := rfl
  cases h with
  | text =>
    refine readIsoDate?_of_month hd true [] ?_ (.inr (.inr (utf8ByteSize_text hd)))
    simp [Time.mark, text]
  | @digits behind hb =>
    obtain ⟨hy, hm, hday⟩ := hd.parts_lt
    refine readIsoDate?_of_month hd false behind.toList (by simp [Time.mark]) ?_
    simp only [String.utf8ByteSize_append, utf8ByteSize_padded hy, utf8ByteSize_padded hm,
      utf8ByteSize_padded hday]
    unfold IsTail at hb
    omega
  | @monday mark hm hmonday =>
    rcases hm with rfl | rfl
    · refine readIsoDate?_of_week hd false ?_ (.inl ⟨hmonday, rfl⟩) (.inl ?_)
      · simp [Time.mark, weekText]
      · rw [utf8ByteSize_weekText hd, String.utf8ByteSize_empty]
    · refine readIsoDate?_of_week hd true ?_ (.inl ⟨hmonday, rfl⟩) (.inr (.inl ?_))
      · simp [Time.mark, weekText]
      · rw [utf8ByteSize_weekText hd, hmark]
  | week =>
    refine readIsoDate?_of_week hd true ?_ (.inr ⟨[], rfl⟩) (.inr (.inr ?_))
    · simp [Time.mark, weekText]
    · simp only [String.utf8ByteSize_append, utf8ByteSize_weekText hd, utf8ByteSize_weekdayText,
        hmark]
  | @weekDigits behind hb =>
    refine readIsoDate?_of_week hd false ?_ (.inr ⟨behind.toList, rfl⟩) ?_
    · simp [Time.mark, weekText]
    · simp only [String.utf8ByteSize_append, utf8ByteSize_weekText hd, utf8ByteSize_weekdayText,
        String.utf8ByteSize_empty]
      unfold IsTail at hb
      omega

/-- A text is read as a date exactly if it is a form of that date. -/
theorem readIsoDate?_eq_some_iff :
    Time.readIsoDate? s.utf8ByteSize s.toList = some d ↔ d.IsReal ∧ d.HasForm s := by
  refine ⟨fun h ↦ ?_, fun ⟨hd, h⟩ ↦ readIsoDate?_of_hasForm hd h⟩
  rw [Time.readIsoDate?_eq] at h
  split at h
  · rename_i hsize
    obtain ⟨⟨y, rest⟩, hread, h⟩ := Option.bind_eq_some_iff.1 h
    obtain ⟨-, hs⟩ := Time.digits?_eq_some_iff.1 hread
    obtain ⟨hyphen, ⟨week, rfl, h⟩ | ⟨month, rfl, h⟩⟩ := Time.readBehindYear?_eq_some_iff.1 h
    · exact hasForm_of_readWeek? h hs hsize
    · exact hasForm_of_readMonth? h hs hsize
  · cases h

end Date

end Footfall
