import Footfall.Proofs.Labels

/-!
Patterns of labels, read by what their elements are documented to mean. The patterns of the two
dialects give the same label for hours, days and months, and for weeks only in years in which both
number the weeks alike.
-/

namespace Footfall

/-- What a pattern is made of: parts of a label, the last digit of the year, or characters that
stand for themselves. -/
inductive PatternElement
  | part (p : LabelPart)
  | lastDigitOfYear
  | character (c : Char)
  deriving DecidableEq, Repr

def PatternElement.text (t : Instant) : PatternElement → String
  | .part p => p.label t
  | .lastDigitOfYear => padded 1 (t.date.year % 10)
  | .character c => String.ofList [c]

/-- A language of patterns: how its elements are spelt, the longest first, and the mark around text
that stands for itself, if there is one. -/
structure PatternLanguage where
  elements : List (String × PatternElement)
  quote : Option Char

namespace PatternLanguage

/-- Reads what is left of a pattern. Of the element that has been read last, some characters may
still have to be passed over. -/
def read (l : PatternLanguage) (quoted : Bool) : Nat → List Char → List PatternElement
  | _, [] => []
  | skip + 1, _ :: cs => l.read quoted skip cs
  | 0, c :: cs =>
    if l.quote = some c then l.read (!quoted) 0 cs
    else if quoted then .character c :: l.read true 0 cs
    else
      match l.elements.find? fun e ↦ e.1.toList.isPrefixOf (c :: cs) with
      | some (s, e) => e :: l.read false (s.length - 1) cs
      | none => .character c :: l.read false 0 cs

/-- The text that a pattern gives for an instant. -/
def format (l : PatternLanguage) (pattern : String) (t : Instant) : String :=
  String.join ((l.read false 0 pattern.toList).map (PatternElement.text t))

/-- The language of the function that formats times in a dialect. -/
def of : Report.Dialect → PatternLanguage
  | .sqlite =>
    { elements := [("%Y", .part .year), ("%m", .part .month), ("%d", .part .day),
        ("%H", .part .hour), ("%W", .part .weekOfYear)]
      quote := none }
  | .postgresql =>
    { elements := [("YYYY", .part .year), ("IYYY", .part .isoYear), ("HH24", .part .hour),
        ("MM", .part .month), ("DD", .part .day), ("IW", .part .isoWeek), ("Y", .lastDigitOfYear)]
      quote := some '"' }

end PatternLanguage

namespace Date

/-- How many of a day and the days up to some days later are of one day of the week. -/
theorem countP_weekday (s m : Nat) {w : Nat} (hw : w < 7) :
    (List.range (m + 1)).countP (fun k ↦ weekday (s + k) = w) =
      (m + 7 - (s + m + 7 - w) % 7) / 7 := by
  induction m with
  | zero =>
    rw [Nat.zero_add, List.range_one, List.countP_singleton]
    by_cases h : weekday (s + 0) = w
    · rw [if_pos (decide_eq_true h)]
      unfold weekday at h
      omega
    · rw [if_neg (by simpa using h)]
      unfold weekday at h
      omega
  | succ m ih =>
    rw [List.range_succ, List.countP_append, ih, List.countP_singleton]
    by_cases h : weekday (s + (m + 1)) = w
    · rw [if_pos (decide_eq_true h)]
      unfold weekday at h
      have hlast : (s + (m + 1) + 7 - w) % 7 = 0 := by omega
      have hbefore : (s + m + 7 - w) % 7 = 6 := by omega
      omega
    · rw [if_neg (by simpa using h)]
      unfold weekday at h
      have hlater : (s + (m + 1) + 7 - w) % 7 = (s + m + 7 - w) % 7 + 1 := by omega
      omega

/-- Weeks of a year are counted by its Mondays, so that the days before the first one are in week 0. -/
theorem weekOfYear_eq_countP (n : Nat) : weekOfYear n =
    (List.range ((splitYear n).2 + 1)).countP
      fun k ↦ weekday (yearStart (splitYear n).1 + k) = 0 := by
  have hday := yearStart_splitYear n
  rw [countP_weekday _ _ (by decide), weekOfYear, weekday]
  omega

/-- Weeks of an ISO year are counted by its Thursdays. -/
theorem isoWeek_eq_countP (n : Nat) : isoWeek n =
    (List.range ((splitYear (thursday n)).2 + 1)).countP
      fun k ↦ weekday (yearStart (isoYear n) + k) = 3 := by
  have hday := yearStart_splitYear (thursday n)
  rw [countP_weekday _ _ (by decide), isoWeek, isoYear]
  have hthursday : thursday n % 7 = 3 := by
    unfold thursday weekday
    omega
  omega

end Date

namespace LabelPart

/-- The elements that a part of a label consists of. -/
def elements : LabelPart → List PatternElement
  | .mark s | .letters s => s.toList.map .character
  | p => [.part p]

theorem join_text_elements (t : Instant) (p : LabelPart) :
    String.join (p.elements.map (PatternElement.text t)) = p.label t := by
  have hpart (q : LabelPart) : String.join ([.part q].map (PatternElement.text t)) = q.label t := by
    rw [List.map_singleton, String.join_cons, String.join_nil, String.append_empty]
    rfl
  have htext (s : String) :
      String.join ((s.toList.map .character).map (PatternElement.text t)) = s := by
    rw [← String.toList_inj, String.toList_join, List.map_map, List.flatMap_map]
    simp [PatternElement.text]
  cases p with
  | mark s | letters s => exact htext s
  | year | isoYear | month | day | hour | weekOfYear | isoWeek => exact hpart _

end LabelPart

namespace Granularity

variable {g : Granularity} {t : Instant}

/-- The label that the pattern of a dialect gives. -/
def written (d : Report.Dialect) (g : Granularity) (t : Instant) : String :=
  (PatternLanguage.of d).format (g.pattern d) t

theorem read_pattern (d : Report.Dialect) (g : Granularity) :
    (PatternLanguage.of d).read false 0 (g.pattern d).toList =
      (g.parts d).flatMap LabelPart.elements := by
  cases d <;> cases g <;> decide +kernel

/-- The patterns give the labels that are made of their parts. -/
theorem written_eq_labelIn (d : Report.Dialect) (g : Granularity) (t : Instant) :
    g.written d t = g.labelIn d t := by
  rw [written, PatternLanguage.format, read_pattern, labelIn]
  induction g.parts d with
  | nil => rfl
  | cons p ps ih =>
    rw [List.flatMap_cons, List.map_append, String.join_append, ih, p.join_text_elements,
      List.map_cons, String.join_cons]

/-- Labels of weeks are the same if both numbers in them are. -/
theorem labelIn_week_eq_iff (ht : t.micros < Instant.limit) :
    Granularity.week.labelIn .sqlite t = Granularity.week.labelIn .postgresql t ↔
      t.date.year = Date.isoYear t.day ∧ Date.weekOfYear t.day = Date.isoWeek t.day := by
  have hyear : t.date.year < 10 ^ 4 := LabelPart.number?_lt (p := .year) ht rfl
  have hyear' : Date.isoYear t.day < 10 ^ 4 := LabelPart.number?_lt (p := .isoYear) ht rfl
  have hweek : Date.weekOfYear t.day < 10 ^ 2 := Date.weekOfYear_lt _
  have hweek' : Date.isoWeek t.day < 10 ^ 2 := Date.isoWeek_lt _
  rw [← (padded_lt_and_inj hyear hyear').2, ← (padded_lt_and_inj hweek hweek').2,
    ← String.toList_inj]
  simp only [labelIn, parts, List.map_cons, List.map_nil, LabelPart.label, String.toList_join,
    List.flatMap_cons, List.flatMap_nil, List.append_nil]
  constructor
  · intro h
    obtain ⟨hy, hrest⟩ := List.append_inj h (length_padded_eq hyear hyear')
    exact ⟨hy, List.append_cancel_left (List.append_cancel_left hrest)⟩
  · rintro ⟨hy, hw⟩
    rw [hy, hw]

/-- In its ISO year a week has the number of the week of the year just if the year does not begin on
a Tuesday, Wednesday or Thursday. If it does, the days before its first Monday are the first ISO week
of it already. -/
theorem weekOfYear_eq_isoWeek_iff (h : t.date.year = Date.isoYear t.day) :
    Date.weekOfYear t.day = Date.isoWeek t.day ↔
      Date.weekday (Date.yearStart t.date.year) ∉ [1, 2, 3] := by
  have hday : Date.yearStart t.date.year + (Date.splitYear t.day).2 = t.day :=
    Date.yearStart_splitYear t.day
  have hthursday : Date.yearStart t.date.year + (Date.splitYear (Date.thursday t.day)).2 =
      Date.thursday t.day := h ▸ Date.yearStart_splitYear (Date.thursday t.day)
  rw [Date.weekOfYear, Date.isoWeek]
  simp only [Date.weekday, Date.thursday, List.mem_cons, List.not_mem_nil, or_false] at *
  omega

/-- The patterns of both dialects give the same label of an instant, for weeks if its ISO year is the
year of its date and that does not begin on a Tuesday, Wednesday or Thursday. -/
theorem written_eq_written_iff (g : Granularity) (ht : t.micros < Instant.limit) :
    g.written .sqlite t = g.written .postgresql t ↔
      (g = .week → t.date.year = Date.isoYear t.day ∧
        Date.weekday (Date.yearStart t.date.year) ∉ [1, 2, 3]) := by
  rw [written_eq_labelIn, written_eq_labelIn]
  cases g with
  | hour | day | month => exact iff_of_true rfl nofun
  | week =>
    rw [labelIn_week_eq_iff ht, and_congr_right weekOfYear_eq_isoWeek_iff]
    exact ⟨fun h _ ↦ h, fun h ↦ h rfl⟩

theorem written_eq_written_iff_newYear :
    (Instant.ofDate ⟨2025, 1, 6⟩).micros < Instant.limit ∧
      (Granularity.week.written .sqlite (.ofDate ⟨2025, 1, 6⟩) =
          Granularity.week.written .postgresql (.ofDate ⟨2025, 1, 6⟩) ↔
        (Granularity.week = .week →
          (Instant.ofDate ⟨2025, 1, 6⟩).date.year = Date.isoYear (Instant.ofDate ⟨2025, 1, 6⟩).day ∧
          Date.weekday (Date.yearStart (Instant.ofDate ⟨2025, 1, 6⟩).date.year) ∉ [1, 2, 3])) := by
  have ht : (Instant.ofDate ⟨2025, 1, 6⟩).micros < Instant.limit := by decide +kernel
  exact ⟨ht, written_eq_written_iff .week ht⟩

/-- The first Monday of a year that begins on a Wednesday starts its first week in one dialect and its
second week in the other. -/
theorem written_week_ne :
    Granularity.week.written .sqlite (.ofDate ⟨2025, 1, 6⟩) = "2025-W01" ∧
      Granularity.week.written .postgresql (.ofDate ⟨2025, 1, 6⟩) = "2025-W02" := by
  decide +kernel

end Granularity

end Footfall
