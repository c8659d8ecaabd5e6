import Footfall.Proofs.Clamping
import Footfall.Proofs.Cleaning
import Footfall.Proofs.Summaries

/-!
Searches for a text in the names of events. A store compares the names with a pattern that is made of
the text: marks of patterns in it are escaped, letters are brought to lower case, and any characters
may stand around it. What is like the pattern is what contains the text, character by character, with
letters of ASCII in either case.
-/

namespace Footfall

namespace Search

/-- Whether a text is like what is left of a pattern. A percent sign stands for any characters, a low
line for any one, and all others stand for themselves, as each character does that follows the escape
character. Letters of ASCII are alike in either case. -/
def isLike (escape : Char) (escaped : Bool) : List Char → List Char → Bool
  | [], text => !escaped && text.isEmpty
  | c :: pattern, text =>
    if escaped then
      match text with
      | [] => false
      | a :: rest => a.toLower == c.toLower && isLike escape false pattern rest
    else if c = '%' then text.tails.any (isLike escape false pattern)
    else if c = escape then isLike escape true pattern text
    else
      match text with
      | [] => false
      | a :: rest => (c == '_' || a.toLower == c.toLower) && isLike escape false pattern rest

/-- A text with an escape character in front of each occurrence of a mark. -/
def escapedAt (escape mark : Char) (cs : List Char) : List Char :=
  cs.flatMap fun c ↦ if c = mark then [escape, c] else [c]

/-- A text whose escape characters, percent signs and low lines are escaped, in this order. -/
def autoescaped (escape : Char) (cs : List Char) : List Char :=
  escapedAt escape '_' (escapedAt escape '%' (escapedAt escape escape cs))

/-- What has a meaning of its own in the pattern of a search. -/
def marks : List Char := ['/', '%', '_']

def lower (cs : List Char) : List Char := cs.map Char.toLower

/-- What is compared of a text: its characters up to the first null character. -/
def compared (cs : List Char) : List Char := cs.takeWhile (· != '\x00')

/-- The pattern of a search. -/
def pattern (s : String) : List Char := '%' :: lower (autoescaped '/' s.toList) ++ ['%']

variable {c d : Char} {cs p text : List Char}

theorem not_isUpper_of_isAlpha (h : c.isAlpha = false) : ¬c.isUpper := fun hupper ↦ by
  rw [Char.isAlpha, hupper] at h
  cases h

/-- What is no letter of ASCII is the lower case of itself only. -/
theorem toLower_eq_iff (hd : d.isAlpha = false) : c.toLower = d ↔ c = d := by
  constructor
  · rintro rfl
    rw [Char.isAlpha_toLower_eq_isAlpha] at hd
    exact (Char.toLower_eq_of_not_isUpper (not_isUpper_of_isAlpha hd)).symm
  · rintro rfl
    exact Char.toLower_eq_of_not_isUpper (not_isUpper_of_isAlpha hd)

theorem autoescaped_cons (c : Char) (cs : List Char) :
    autoescaped '/' (c :: cs) = (if c ∈ marks then ['/', c] else [c]) ++ autoescaped '/' cs := by
  simp only [autoescaped, escapedAt, List.flatMap_cons, List.flatMap_append]
  congr 1
  by_cases hslash : c = '/'
  · subst hslash
    decide
  · by_cases hpercent : c = '%'
    · subst hpercent
      decide
    · by_cases hline : c = '_'
      · subst hline
        decide
      · simp [marks, hslash, hpercent, hline]

theorem isLike_percent : isLike '/' false ('%' :: p) text = true ↔
    ∃ rest, rest <:+ text ∧ isLike '/' false p rest = true := by
  simp [isLike]

theorem toLower_mem_marks_iff : c.toLower ∈ marks ↔ c ∈ marks := by
  simp only [marks, List.mem_cons, List.not_mem_nil, or_false]
  rw [toLower_eq_iff (by decide), toLower_eq_iff (by decide), toLower_eq_iff (by decide)]

/-- A character, escaped if it is a mark, stands for itself. -/
theorem isLike_escaped_cons (c : Char) (p text : List Char) :
    isLike '/' false (lower (if c ∈ marks then ['/', c] else [c]) ++ p) text = true ↔
      ∃ a rest, text = a :: rest ∧ a.toLower = c.toLower ∧ isLike '/' false p rest = true := by
  by_cases hc : c ∈ marks
  · have hslash : '/'.toLower = '/' := by decide
    rw [if_pos hc]
    cases text with
    | nil => simp [lower, isLike, hslash]
    | cons a rest => simp [lower, isLike, hslash]
  · have hlower : c.toLower ∉ marks := mt toLower_mem_marks_iff.1 hc
    simp only [marks, List.mem_cons, List.not_mem_nil, or_false, not_or] at hlower
    rw [if_neg hc]
    cases text with
    | nil => simp [lower, isLike, hlower]
    | cons a rest => simp [lower, isLike, hlower]

/-- An escaped text stands for itself, by induction on its characters. -/
theorem isLike_autoescaped_append (cs p text : List Char) :
    isLike '/' false (lower (autoescaped '/' cs) ++ p) text = true ↔
      ∃ front rest, text = front ++ rest ∧ lower front = lower cs ∧
        isLike '/' false p rest = true := by
  induction cs generalizing text with
  | nil =>
    constructor
    · exact fun h ↦ ⟨[], text, rfl, rfl, h⟩
    · rintro ⟨front, rest, rfl, hfront, h⟩
      rw [List.map_eq_nil_iff.1 hfront]
      exact h
  | cons c cs ih =>
    rw [autoescaped_cons, lower, List.map_append, List.append_assoc]
    refine (isLike_escaped_cons c _ text).trans ⟨?_, ?_⟩
    · rintro ⟨a, text', rfl, ha, h⟩
      obtain ⟨front, rest, rfl, hfront, hrest⟩ := (ih text').1 h
      exact ⟨a :: front, rest, rfl, congrArg₂ List.cons ha hfront, hrest⟩
    · rintro ⟨front, rest, rfl, hfront, hrest⟩
      obtain ⟨a, front, rfl, ha, hfront⟩ := List.map_eq_cons_iff.1 hfront
      exact ⟨a, front ++ rest, rfl, ha, (ih _).2 ⟨front, rest, rfl, hfront, hrest⟩⟩

/-- Between percent signs an escaped text is found wherever it stands. -/
theorem isLike_infix_iff (cs text : List Char) :
    isLike '/' false ('%' :: lower (autoescaped '/' cs) ++ ['%']) text = true ↔
      lower cs <:+: lower text := by
  have hany (rest : List Char) : isLike '/' false ['%'] rest = true :=
    isLike_percent.2 ⟨[], List.nil_suffix, rfl⟩
  rw [List.cons_append, isLike_percent]
  constructor
  · rintro ⟨_, ⟨before, rfl⟩, h⟩
    obtain ⟨front, rest, rfl, hfront, -⟩ := (isLike_autoescaped_append ..).1 h
    rw [← hfront]
    exact ⟨lower before, lower rest, by simp [lower]⟩
  · rintro ⟨before, after, h⟩
    obtain ⟨text', rest, rfl, htext', -⟩ := List.map_eq_append_iff.1 h.symm
    obtain ⟨before', front, rfl, -, hfront⟩ := List.map_eq_append_iff.1 htext'
    exact ⟨front ++ rest, ⟨before', (List.append_assoc ..).symm⟩,
      (isLike_autoescaped_append ..).2 ⟨front, rest, rfl, hfront, hany rest⟩⟩

/-- Without the second percent sign it is found at the end only. -/
theorem isLike_suffix_iff (cs text : List Char) :
    isLike '/' false ('%' :: lower (autoescaped '/' cs)) text = true ↔
      lower cs <:+ lower text := by
  have hend (rest : List Char) : isLike '/' false [] rest = true ↔ rest = [] := by
    simp [isLike]
  rw [isLike_percent]
  constructor
  · rintro ⟨_, ⟨before, rfl⟩, h⟩
    rw [← List.append_nil (lower (autoescaped '/' cs))] at h
    obtain ⟨front, rest, rfl, hfront, hrest⟩ := (isLike_autoescaped_append ..).1 h
    rw [← hfront, (hend rest).1 hrest]
    exact ⟨lower before, by simp [lower]⟩
  · rintro ⟨before, h⟩
    obtain ⟨before', front, rfl, -, hfront⟩ := List.map_eq_append_iff.1 h.symm
    refine ⟨front, ⟨before', rfl⟩, ?_⟩
    rw [← List.append_nil (lower (autoescaped '/' cs))]
    exact (isLike_autoescaped_append ..).2
      ⟨front, [], (List.append_nil _).symm, hfront, rfl⟩

theorem lower_lower (cs : List Char) : lower (lower cs) = lower cs := by
  rw [lower, lower, List.map_map]
  exact List.map_congr_left fun c _ ↦ c.toLower_toLower_eq_toLower

theorem compared_lower (cs : List Char) : compared (lower cs) = lower (compared cs) := by
  rw [compared, lower, List.takeWhile_map]
  refine congrArg lower (congrArg (List.takeWhile · cs) (funext fun c ↦ ?_))
  rw [Function.comp_apply, Bool.eq_iff_iff, bne_iff_ne, bne_iff_ne, ne_eq, ne_eq,
    toLower_eq_iff (by decide)]

/-- Escaping goes on up to a null character, after which nothing is compared any more. -/
theorem compared_autoescaped_append (cs p : List Char) :
    compared (lower (autoescaped '/' cs) ++ p) =
      lower (autoescaped '/' (compared cs)) ++ if '\x00' ∈ cs then [] else compared p := by
  induction cs with
  | nil => rfl
  | cons c cs ih =>
    rw [autoescaped_cons, lower, List.map_append, List.append_assoc]
    by_cases hc : c = '\x00'
    · subst hc
      simp [compared, marks, autoescaped, escapedAt, lower]
    · have hfirst : ∀ a ∈ (if c ∈ marks then ['/', c] else [c]).map Char.toLower,
          (a != '\x00') = true := by
        intro a ha
        obtain ⟨b, hb, rfl⟩ := List.mem_map.1 ha
        rw [bne_iff_ne, ne_eq, toLower_eq_iff (by decide)]
        obtain rfl | rfl : b = '/' ∨ b = c := by split at hb <;> simp_all
        · decide
        · exact hc
      have hcompared : compared (c :: cs) = c :: compared cs :=
        List.takeWhile_cons_of_pos (bne_iff_ne.2 hc)
      have hmem : '\x00' ∈ c :: cs ↔ '\x00' ∈ cs := by simp [Ne.symm hc]
      rw [compared, List.takeWhile_append_of_pos hfirst]
      simp only [hcompared, autoescaped_cons, lower, List.map_append, List.append_assoc, hmem]
      exact congrArg _ ih

theorem compared_pattern (s : String) : compared (pattern s) =
    '%' :: lower (autoescaped '/' (compared s.toList)) ++
      if '\x00' ∈ s.toList then [] else ['%'] := by
  rw [pattern, List.cons_append, compared, List.takeWhile_cons_of_pos (by decide)]
  exact congrArg _ (compared_autoescaped_append _ _)

/-- A name is found just when it is like the pattern of the search. -/
theorem isFound_eq_isLike (s : String) (e : StoredEvent) :
    Table.isFound s e =
      isLike '/' false (compared (pattern s)) (compared (lower e.event.toList)) := by
  rw [Bool.eq_iff_iff, Table.isFound, compared_pattern, compared_lower]
  by_cases hnul : '\x00' ∈ s.toList
  · rw [if_pos (List.contains_iff_mem.2 hnul), if_pos hnul, List.append_nil, isLike_suffix_iff,
      lower_lower]
    exact List.isSuffixOf_iff_suffix
  · rw [if_neg (mt List.contains_iff_mem.1 hnul), if_neg hnul, isLike_infix_iff, lower_lower]
    exact Table.isWithin_iff _ _

theorem compared_eq_self (h : '\x00' ∉ cs) : compared cs = cs :=
  List.takeWhile_eq_self_iff.2 fun _ hc ↦ bne_iff_ne.2 fun heq ↦ h (heq ▸ hc)

/-- Without null characters a name is found if it is like the whole pattern. -/
theorem hasInName_iff_isLike {s : String} {e : StoredEvent} (hs : '\x00' ∉ s.toList)
    (he : '\x00' ∉ e.event.toList) :
    e.HasInName s ↔ isLike '/' false (pattern s) (lower e.event.toList) = true := by
  rw [← Table.isFound_iff, isFound_eq_isLike, compared_pattern, compared_lower,
    compared_eq_self hs, compared_eq_self he, if_neg hs]
  rfl

theorem isLike_pattern_iff (s name : String) :
    isLike '/' false (pattern s) (lower name.toList) = true ↔
      lower s.toList <:+: lower name.toList := by
  rw [pattern, isLike_infix_iff, lower_lower]

example : isLike '/' false (pattern "5%") (lower "Over 5% off".toList) = true ∧
    isLike '/' false (pattern "5%") (lower "Over 50 off".toList) = false := by decide +kernel

end Search

namespace SummaryOptions

variable {o : SummaryOptions} {fields : Fields}

theorem exists_of_converted {v : Value} {f : Int → Int} {n : Int}
    (h : converted v f = .accepted n) : ∃ m, n = f m := by
  unfold converted at h
  split at h
  · cases h
    exact ⟨_, rfl⟩
  all_goals cases h

theorem limit_mem_of_read (h : SummaryOptions.read (.object fields) = .accepted o) :
    1 ≤ o.limit ∧ o.limit ≤ 500 := by
  obtain ⟨-, -, -, -, hlimit, -⟩ := read_eq_accepted_iff.1 h
  rcases Field.of_optional hlimit with hdefault | ⟨v, -, hv⟩
  · omega
  · unfold readLimit at hv
    split at hv
    · rw [← Reading.accepted.inj hv]
      decide
    · obtain ⟨m, hm⟩ := exists_of_converted hv
      rw [hm]
      exact clampLimit_mem m

/-- A text to search for loses its outer blanks, and is left out if it is blank. -/
theorem search_of_read {s : String} (h : SummaryOptions.read (.object fields) = .accepted o)
    (hs : Value.lookup fields "search" = some (.text s)) :
    o.search = if (Text.strip s).isEmpty then none else some (Text.strip s) := by
  obtain ⟨-, hsearch, -⟩ := read_eq_accepted_iff.1 h
  rw [Field.optional, hs] at hsearch
  exact (Reading.accepted.inj hsearch).symm

/-- Selected are the rows in the range that have the text in their names, any if there is none. -/
theorem mem_and_selects_iff {t : Table} {e : StoredEvent} :
    e ∈ t ∧ o.Selects e ↔ e ∈ t.within o.range ∧ ∀ s ∈ o.search, e.HasInName s := by
  have hwithin : e ∈ t.within o.range ↔ e ∈ t ∧ Selects { o with search := none } e := by
    rw [← Table.meeting_of_search (o := { o with search := none }) t rfl,
      Table.meeting_summaryConditions, List.mem_filter, decide_eq_true_iff]
  rw [hwithin]
  constructor
  · rintro ⟨he, hselects⟩
    exact ⟨⟨he, hselects.start, hselects.last, nofun⟩, hselects.found⟩
  · rintro ⟨⟨he, hselects⟩, hfound⟩
    exact ⟨he, hselects.start, hselects.last, hfound⟩

end SummaryOptions

namespace Views

variable {v : Views} {t : Table} {o : SummaryOptions} {fields : Fields} {s : String}

open Search

theorem Shows.exists_summaryPages (h : v.Shows t) (hlen : t.length < 0x8000000000000000)
    (hlimit : 1 ≤ o.limit) (hfits : fitsTable o.limit = true) :
    ∃ pages, v.SummaryPages { o with offset := 0 } pages ∧
      pages.flatMap (·.rows) = t.ranked o := by
  have hranked : (t.ranked o).length < 0x8000000000000000 :=
    (length_ranked_le t o).trans_lt hlen
  obtain ⟨rows, hwalk⟩ := h.exists_walk (o := { o with offset := 0 }) hranked le_rfl
    (Int.natCast_nonneg _) hlimit hfits
  obtain ⟨pages, hpages⟩ := hwalk.exists_pages
  exact ⟨pages, hpages, h.walk_eq hpages.walk le_rfl hlimit⟩

/-- The pages of a summary list the names in the range that contain the text to search for, without
its outer blanks; that is what being like the pattern of the text comes to. A blank text leaves out
no name. -/
theorem mem_summaryPages_iff_infix (h : Of t v) (hlen : t.length < 0x8000000000000000)
    (hread : SummaryOptions.read (.object fields) = .accepted o)
    (hsearch : Value.lookup fields "search" = some (.text s)) (hs : '\x00' ∉ s.toList) :
    ∃ pages, (∀ ps, v.SummaryPages { o with offset := 0 } ps ↔ ps = pages) ∧
      ∀ name : String, '\x00' ∉ name.toList →
        (name ∈ (pages.flatMap (·.rows)).map (·.event) ↔
          (∃ e ∈ t.within o.range, e.event = name) ∧
            lower (Text.strip s).toList <:+: lower name.toList) ∧
        (isLike '/' false (pattern (Text.strip s)) (lower name.toList) = true ↔
          lower (Text.strip s).toList <:+: lower name.toList) ∧
        (Text.isBlankText s = true → (name ∈ (pages.flatMap (·.rows)).map (·.event) ↔
          ∃ e ∈ t.within o.range, e.event = name)) := by
  obtain ⟨hlow, hhigh⟩ := SummaryOptions.limit_mem_of_read hread
  have hfits : fitsTable o.limit = true := decide_eq_true (by omega)
  obtain ⟨pages, hpages, hrows⟩ := h.shows.exists_summaryPages hlen hlow hfits
  have hfound {e : StoredEvent} (he : '\x00' ∉ e.event.toList) :
      (∀ s' ∈ o.search, e.HasInName s') ↔
        lower (Text.strip s).toList <:+: lower e.event.toList := by
    rw [SummaryOptions.search_of_read hread hsearch]
    by_cases hempty : (Text.strip s).isEmpty = true
    · have hnil : (Text.strip s).toList = [] := by simpa using hempty
      simp [hempty, hnil, lower]
    · have hnul : '\x00' ∉ (Text.strip s).toList := mt Text.mem_of_mem_strip hs
      rw [if_neg hempty, ← isLike_pattern_iff, ← hasInName_iff_isLike hnul he]
      simp
  have hlisted (name : String) (hname : '\x00' ∉ name.toList) :
      name ∈ (pages.flatMap (·.rows)).map (·.event) ↔
        (∃ e ∈ t.within o.range, e.event = name) ∧
          lower (Text.strip s).toList <:+: lower name.toList := by
    rw [hrows, (Table.perm_names_ranked t o).mem_iff, mem_distinct]
    simp only [List.mem_map, List.mem_filter, decide_eq_true_iff,
      SummaryOptions.mem_and_selects_iff]
    constructor
    · rintro ⟨e, ⟨he, hsearched⟩, rfl⟩
      exact ⟨⟨e, he, rfl⟩, (hfound hname).1 hsearched⟩
    · rintro ⟨⟨e, he, rfl⟩, hinfix⟩
      exact ⟨e, ⟨he, (hfound hname).2 hinfix⟩, rfl⟩
  refine ⟨pages, fun ps ↦ ⟨fun hps ↦ hps.eq hpages, fun heq ↦ heq ▸ hpages⟩,
    fun name hname ↦ ⟨hlisted name hname, isLike_pattern_iff _ _, fun hblank ↦ ?_⟩⟩
  have hempty : (Text.strip s).toList = [] := by
    simpa using (Text.strip_isEmpty_iff s).2 (List.all_eq_true.1 hblank)
  rw [hlisted name hname, hempty]
  exact and_iff_left List.nil_infix

theorem mem_summaryPages_iff_infix_twoNames :
    Of twoNames.content twoNames.views ∧ twoNames.content.length < 0x8000000000000000 ∧
    SummaryOptions.read (.object [("search", .text " UP ")]) = .accepted { search := some "UP" } ∧
    Value.lookup [("search", .text " UP ")] "search" = some (.text " UP ") ∧
    '\x00' ∉ " UP ".toList ∧
    ∃ pages, (∀ ps, twoNames.views.SummaryPages { search := some "UP", offset := 0 } ps ↔
        ps = pages) ∧
      ∀ name : String, '\x00' ∉ name.toList →
        (name ∈ (pages.flatMap (·.rows)).map (·.event) ↔
          (∃ e ∈ twoNames.content.within none, e.event = name) ∧
            lower (Text.strip " UP ").toList <:+: lower name.toList) ∧
        (isLike '/' false (pattern (Text.strip " UP ")) (lower name.toList) = true ↔
          lower (Text.strip " UP ").toList <:+: lower name.toList) ∧
        (Text.isBlankText " UP " = true → (name ∈ (pages.flatMap (·.rows)).map (·.event) ↔
          ∃ e ∈ twoNames.content.within none, e.event = name)) := by
  have h : Of twoNames.content twoNames.views := .store fun _ ↦ rfl
  have hlen : twoNames.content.length < 0x8000000000000000 := by decide
  have hread : SummaryOptions.read (.object [("search", .text " UP ")]) =
      .accepted { search := some "UP" } := by rfl
  have hs : '\x00' ∉ " UP ".toList := by decide
  exact ⟨h, hlen, hread, rfl, hs, mem_summaryPages_iff_infix h hlen hread rfl hs⟩

end Views

end Footfall
