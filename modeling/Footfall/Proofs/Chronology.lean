import Footfall.Proofs.Calendar
import Footfall.Proofs.Values
import Mathlib.Data.List.Lex

/-!
The order of days and of the texts under which days and instants are stored. Numbers that are padded
to one width come in the order of their digits; so texts of dates come in the order of the calendar,
as the numbers of their days do, and the text of an instant is before that of a midnight exactly when
its day is before.
-/

namespace Footfall

/-- Of texts whose fronts are of one length, the fronts decide unless they are the same. -/
theorem append_lt_append_iff {xs ys us vs : List Char} (h : xs.length = ys.length) :
    xs ++ us < ys ++ vs ↔ xs < ys ∨ xs = ys ∧ us < vs := by
  induction xs generalizing ys with
  | nil =>
    rw [List.length_nil, eq_comm, List.length_eq_zero_iff] at h
    simp [h]
  | cons x xs ih =>
    obtain ⟨y, ys, rfl⟩ := List.exists_cons_of_length_eq_add_one h.symm
    simp only [List.cons_append, List.cons_lt_cons_iff, ih (Nat.succ.inj h), List.cons.injEq]
    tauto

theorem digitChar_lt_iff {m n : Nat} (hm : m < 10) (hn : n < 10) :
    Nat.digitChar m < Nat.digitChar n ↔ m < n := by
  rw [Char.lt_def, UInt32.lt_iff_toNat_lt]
  show (Nat.digitChar m).toNat < (Nat.digitChar n).toNat ↔ _
  rw [toNat_digitChar hm, toNat_digitChar hn]
  omega

theorem digitChar_inj {m n : Nat} (hm : m < 10) (hn : n < 10) :
    Nat.digitChar m = Nat.digitChar n ↔ m = n := by
  refine ⟨fun h ↦ ?_, fun h ↦ by rw [h]⟩
  have := toNat_digitChar hm
  rw [h, toNat_digitChar hn] at this
  omega

theorem toList_padded_one {n : Nat} (h : n < 10) : (padded 1 n).toList = [Nat.digitChar n] := by
  interval_cases n <;> decide

theorem length_padded {w n : Nat} (h : n < 10 ^ (w + 1)) :
    (padded (w + 1) n).toList.length = w + 1 := by
  induction w generalizing n with
  | zero => rw [toList_padded_one h, List.length_singleton]
  | succ w ih =>
    rw [toList_padded_succ (Nat.succ_pos w), List.length_append, ih (by omega),
      List.length_singleton]

theorem length_padded_eq {w m n : Nat} (hm : m < 10 ^ (w + 1)) (hn : n < 10 ^ (w + 1)) :
    (padded (w + 1) m).toList.length = (padded (w + 1) n).toList.length :=
  (length_padded hm).trans (length_padded hn).symm

theorem exists_digitChar {c : Char} (h : c.isDigit = true) : ∃ n < 10, c = Nat.digitChar n := by
  simp only [Char.isDigit, Bool.and_eq_true, decide_eq_true_eq, UInt32.le_iff_toNat_le] at h
  obtain ⟨hlow, hhigh⟩ := h
  have hlow' : 48 ≤ c.toNat := hlow
  have hhigh' : c.toNat ≤ 57 := hhigh
  refine ⟨c.toNat - 48, by omega, Char.toNat_inj.1 ?_⟩
  rw [toNat_digitChar (by omega)]
  omega

/-- By induction on the width: the fronts decide, and if they are the same the last digits do. -/
theorem padded_lt_and_inj {w m n : Nat} (hm : m < 10 ^ (w + 1)) (hn : n < 10 ^ (w + 1)) :
    ((padded (w + 1) m).toList < (padded (w + 1) n).toList ↔ m < n) ∧
      ((padded (w + 1) m).toList = (padded (w + 1) n).toList ↔ m = n) := by
  induction w generalizing m n with
  | zero =>
    rw [toList_padded_one hm, toList_padded_one hn]
    simp [List.cons_lt_cons_iff, digitChar_lt_iff hm hn, digitChar_inj hm hn]
  | succ w ih =>
    have hm' : m / 10 < 10 ^ (w + 1) := by omega
    have hn' : n / 10 < 10 ^ (w + 1) := by omega
    have hmod (k : Nat) : k % 10 < 10 := Nat.mod_lt k (by decide)
    obtain ⟨hlt, heq⟩ := ih hm' hn'
    have hlength := length_padded_eq hm' hn'
    rw [toList_padded_succ (Nat.succ_pos w), toList_padded_succ (Nat.succ_pos w)]
    constructor
    · rw [append_lt_append_iff hlength, hlt, heq]
      simp only [List.cons_lt_cons_iff, digitChar_lt_iff (hmod m) (hmod n), List.not_lt_nil,
        and_false, or_false]
      omega
    · have hsplit (x y : Char) : (padded (w + 1) (m / 10)).toList ++ [x] =
          (padded (w + 1) (n / 10)).toList ++ [y] ↔ m / 10 = n / 10 ∧ x = y := by
        rw [← heq]
        refine ⟨fun h ↦ ?_, fun ⟨h, hxy⟩ ↦ by rw [h, hxy]⟩
        simpa using List.append_inj h hlength
      rw [hsplit, digitChar_inj (hmod m) (hmod n)]
      omega

namespace Date

variable {a b d : Date}

/-- The order of the calendar: years, then months, then days. -/
def IsBefore (a b : Date) : Prop :=
  a.year < b.year ∨ a.year = b.year ∧ (a.month < b.month ∨ a.month = b.month ∧ a.day < b.day)

instance (a b : Date) : Decidable (a.IsBefore b) := by unfold IsBefore; infer_instance

theorem IsBefore.trichotomy (a b : Date) : a.IsBefore b ∨ a = b ∨ b.IsBefore a := by
  obtain ⟨y, m, n⟩ := a
  obtain ⟨y', m', n'⟩ := b
  simp only [IsBefore, Date.mk.injEq]
  omega

/-- Days of a month are before those of a later one. -/
theorem dayOfYear_lt_of_month (ha : a.IsReal) (hb : b.IsReal) (hyear : a.year = b.year)
    (hmonth : a.month < b.month) : a.dayOfYear < b.dayOfYear := by
  have hmonths : ∀ leap : Bool, ∀ m n : Fin 12, m < n →
      ((monthLengths leap).take m).foldl (· + ·) 0 + (monthLengths leap).getD m 0 ≤
        ((monthLengths leap).take n).foldl (· + ·) 0 := by decide
  obtain ⟨-, -, hlow, hhigh, hday, hlength⟩ := ha
  obtain ⟨-, -, hlow', hhigh', -, -⟩ := hb
  have := hmonths (isLeap a.year) ⟨a.month - 1, by omega⟩ ⟨b.month - 1, by omega⟩
    (Fin.mk_lt_mk.2 (by omega))
  simp only at this
  unfold monthLength at hlength
  simp only [dayOfYear, ← hyear]
  omega

/-- A year has 366 days if it is a leap year, and else 365. -/
theorem yearStart_succ {y : Nat} (hy : 1 ≤ y) :
    yearStart (y + 1) = yearStart y + 365 + (isLeap y).toNat := by
  obtain ⟨x, rfl⟩ := Nat.exists_eq_add_of_le' hy
  have hle : x / 100 ≤ x := Nat.div_le_self ..
  have hfour : (x + 1) % 100 = 0 → (x + 1) % 4 = 0 := by omega
  have hcentury : (x + 1) % 400 = 0 → (x + 1) % 100 = 0 := by omega
  simp only [yearStart, Nat.add_sub_cancel]
  by_cases h₄₀₀ : (x + 1) % 400 = 0
  · have h₁₀₀ := hcentury h₄₀₀
    have hleap : isLeap (x + 1) = true := by simp [isLeap, hfour h₁₀₀, h₄₀₀]
    rw [hleap, Nat.succ_div_of_mod_eq_zero h₄₀₀, Nat.succ_div_of_mod_eq_zero h₁₀₀,
      Nat.succ_div_of_mod_eq_zero (hfour h₁₀₀), Bool.toNat_true]
    omega
  · rw [Nat.succ_div_of_mod_ne_zero h₄₀₀]
    by_cases h₁₀₀ : (x + 1) % 100 = 0
    · have hleap : isLeap (x + 1) = false := by simp [isLeap, h₁₀₀, h₄₀₀]
      rw [hleap, Nat.succ_div_of_mod_eq_zero h₁₀₀, Nat.succ_div_of_mod_eq_zero (hfour h₁₀₀),
        Bool.toNat_false]
      omega
    · rw [Nat.succ_div_of_mod_ne_zero h₁₀₀]
      by_cases h₄ : (x + 1) % 4 = 0
      · have hleap : isLeap (x + 1) = true := by simp [isLeap, h₁₀₀, h₄]
        rw [hleap, Nat.succ_div_of_mod_eq_zero h₄, Bool.toNat_true]
        omega
      · have hleap : isLeap (x + 1) = false := by simp [isLeap, h₄]
        rw [hleap, Nat.succ_div_of_mod_ne_zero h₄, Bool.toNat_false]
        omega

theorem yearStart_le {y z : Nat} (h : y ≤ z) : yearStart y ≤ yearStart z := by
  rcases h.eq_or_lt with rfl | h
  · rfl
  · simp only [yearStart]
    omega

theorem number_lt_of_isBefore (ha : a.IsReal) (hb : b.IsReal) (h : a.IsBefore b) :
    a.number < b.number := by
  rcases h with hyear | ⟨hyear, hmonth | ⟨hmonth, hday⟩⟩
  · have hmono : yearStart (a.year + 1) ≤ yearStart b.year := yearStart_le hyear
    have hlast := dayOfYear_lt ha
    have hnext := yearStart_succ ha.1
    simp only [number]
    omega
  · have := dayOfYear_lt_of_month ha hb hyear hmonth
    rw [number, number, hyear]
    omega
  · have ha' := ha.2.2.2.2.1
    simp only [number, dayOfYear, hyear, hmonth]
    omega

/-- The numbers of days come in the order of the calendar. -/
theorem number_lt_iff (ha : a.IsReal) (hb : b.IsReal) : a.number < b.number ↔ a.IsBefore b := by
  refine ⟨fun h ↦ ?_, number_lt_of_isBefore ha hb⟩
  rcases IsBefore.trichotomy a b with hab | rfl | hba
  · exact hab
  · exact absurd h (lt_irrefl _)
  · exact absurd h (number_lt_of_isBefore hb ha hba).not_gt

theorem IsReal.parts_lt (h : d.IsReal) : d.year < 10 ^ 4 ∧ d.month < 10 ^ 2 ∧ d.day < 10 ^ 2 :=
  ⟨Nat.lt_succ_of_le h.2.1, h.month_lt, h.day_lt⟩

theorem text_toList (d : Date) : d.text.toList =
    (padded 4 d.year).toList ++
      '-' :: ((padded 2 d.month).toList ++ '-' :: (padded 2 d.day).toList) := by
  simp [text, String.toList_append]

/-- The texts of dates come in the order of the calendar. -/
theorem text_lt_iff (ha : a.IsReal) (hb : b.IsReal) :
    a.text.toList < b.text.toList ↔ a.IsBefore b := by
  obtain ⟨hy, hm, hd⟩ := ha.parts_lt
  obtain ⟨hy', hm', hd'⟩ := hb.parts_lt
  have hyear := padded_lt_and_inj hy hy'
  have hmonth := padded_lt_and_inj hm hm'
  have hday := padded_lt_and_inj hd hd'
  rw [text_toList, text_toList, append_lt_append_iff (length_padded_eq hy hy'), hyear.1, hyear.2,
    List.cons_lt_cons_iff, append_lt_append_iff (length_padded_eq hm hm'), hmonth.1, hmonth.2,
    List.cons_lt_cons_iff, hday.1]
  simp [IsBefore]

/-- A text of the form of a date is that of three numbers. -/
theorem exists_of_isDateForm {cs : List Char} (h : Time.isDateForm cs = true) :
    ∃ d : Date, d.year < 10000 ∧ d.month < 100 ∧ d.day < 100 ∧ cs = d.text.toList := by
  unfold Time.isDateForm at h
  split at h
  · rename_i a b c d e f g i
    simp only [List.all_cons, List.all_nil, Bool.and_true, Bool.and_eq_true] at h
    obtain ⟨ha, hb, hc, hd, he, hf, hg, hi⟩ := h
    obtain ⟨a, ha, rfl⟩ := exists_digitChar ha
    obtain ⟨b, hb, rfl⟩ := exists_digitChar hb
    obtain ⟨c, hc, rfl⟩ := exists_digitChar hc
    obtain ⟨d, hd, rfl⟩ := exists_digitChar hd
    obtain ⟨e, he, rfl⟩ := exists_digitChar he
    obtain ⟨f, hf, rfl⟩ := exists_digitChar hf
    obtain ⟨g, hg, rfl⟩ := exists_digitChar hg
    obtain ⟨i, hi, rfl⟩ := exists_digitChar hi
    have hyear : a * 1000 + b * 100 + c * 10 + d < 10000 := by omega
    have hmonth : e * 10 + f < 100 := by omega
    have hday : g * 10 + i < 100 := by omega
    refine ⟨⟨a * 1000 + b * 100 + c * 10 + d, e * 10 + f, g * 10 + i⟩, hyear, hmonth, hday, ?_⟩
    rw [toList_text_of_lt hyear hmonth hday]
    simp only [List.cons.injEq, and_true, true_and]
    refine ⟨?_, ?_, ?_, ?_, ?_, ?_, ?_, ?_⟩ <;> (congr 1; omega)
  · cases h

/-- What is read as a date is the text of a date that the calendar has. -/
theorem readDate?_eq_some_iff {cs : List Char} :
    Time.readDate? cs = some (.ok d) ↔ d.IsReal ∧ cs = d.text.toList := by
  refine ⟨fun h ↦ ?_, fun ⟨hd, hcs⟩ ↦ hcs ▸ readDate?_text hd⟩
  by_cases hform : Time.isDateForm cs = true
  · obtain ⟨c, hy, hm, hd, rfl⟩ := exists_of_isDateForm hform
    rw [readDate?_of_lt hy hm hd, Option.some.injEq, Time.checkDate] at h
    split at h
    · cases h
    · split at h
      · cases h
      · split at h
        · cases h
        · cases h
          exact ⟨⟨by omega, by omega, by omega, by omega, by omega, by omega⟩, rfl⟩
  · rw [Time.readDate?, if_neg hform] at h
    cases h

end Date

namespace Instant

variable {t : Instant} {d : Date}

/-- The text of an instant is before that of a midnight if its day is before. The time of day does
not matter, since that of a midnight is the first there is. -/
theorem storedText_lt_midnight_iff (ht : t.micros < limit) (hd : d.IsReal) :
    t.storedText.toList < (d.text ++ " 00:00:00").toList ↔ t.date.IsBefore d := by
  have hreal : t.date.IsReal := Date.isReal_ofNumber (day_lt ht)
  have hh : t.hourOfDay < 100 := t.hourOfDay_lt.trans (by decide)
  have hm : t.minuteOfHour < 100 := (Nat.mod_lt _ (by decide)).trans (show 60 < 100 by decide)
  have hs : t.secondOfMinute < 100 := (Nat.mod_lt _ (by decide)).trans (show 60 < 100 by decide)
  have hmidnight : (d.text ++ " 00:00:00").toList = d.text.toList ++ ' ' :: ((padded 2 0).toList ++
      ':' :: ((padded 2 0).toList ++ ':' :: ((padded 2 0).toList ++ []))) := by
    rw [String.toList_append]
    exact congrArg _ (by decide)
  have hclock : ¬(' ' :: ((padded 2 t.hourOfDay).toList ++ ':' :: ((padded 2 t.minuteOfHour).toList ++
      ':' :: ((padded 2 t.secondOfMinute).toList ++ '.' :: (padded 6 t.fraction).toList))) <
      ' ' :: ((padded 2 0).toList ++ ':' :: ((padded 2 0).toList ++ ':' ::
        ((padded 2 0).toList ++ [])))) := by
    rw [List.cons_lt_cons_iff, append_lt_append_iff (length_padded_eq hh (by decide)),
      List.cons_lt_cons_iff, append_lt_append_iff (length_padded_eq hm (by decide)),
      List.cons_lt_cons_iff, append_lt_append_iff (length_padded_eq hs (by decide)),
      (padded_lt_and_inj hh (by decide)).1, (padded_lt_and_inj hm (by decide)).1,
      (padded_lt_and_inj hs (by decide)).1]
    simp
  have hlength : t.date.text.toList.length = d.text.toList.length := by
    rw [Date.toList_text hreal, Date.toList_text hd]
    rfl
  rw [toList_storedText, hmidnight, append_lt_append_iff hlength, Date.text_lt_iff hreal hd]
  exact or_iff_left fun h ↦ hclock h.2

end Instant

end Footfall
