import Footfall.Proofs.Literals
import Footfall.Report.Compile
import Mathlib.Data.Finset.Basic

/-!
The text of a compiled query. Its shape, which is left when the content of every literal is taken
out, does not depend on the values of the filters, and these values can be read back from it.
-/

namespace Footfall.Sql

open Report (doubled literal)

/-- A phrase in which nothing is said to equal a literal. -/
structure IsInert (a : List Char) : Prop extends IsPhrase a where
  equalityLiterals_eq : equalityLiterals a = []

namespace IsInert

variable {a b : List Char}

theorem append (ha : IsInert a) (hb : IsInert b) : IsInert (a ++ b) :=
  ⟨ha.toIsPhrase.append hb.toIsPhrase, by
    rw [ha.equalityLiterals_append hb.toIsPhrase, ha.equalityLiterals_eq, hb.equalityLiterals_eq,
      List.append_nil]⟩

theorem of_chars (ha : '\'' ∉ a) : IsInert a :=
  ⟨(IsPhrase.of_chars ha).1, (IsPhrase.of_chars ha).2.2⟩

theorem of_literal {x : List Char} (hx : '\'' ∉ x) (hlen : 3 ≤ x.length)
    (hk : endsEqual x = false) (s : String) : IsInert (x ++ (literal s).toList) := by
  obtain ⟨h, -, he⟩ := IsPhrase.of_literal hx hlen s.toList
  rw [literal, String.toList_ofList]
  exact ⟨h, by simpa [hk] using he⟩

end IsInert

end Footfall.Sql

namespace Footfall.Report

open Sql

/-- A name without quotes. -/
def IsPlainName (s : String) : Prop := '\'' ∉ s.toList

theorem isPlainName_of_isIdentifier {s : String} (h : isIdentifier s = true) : IsPlainName s := by
  intro hmem
  unfold isIdentifier at h
  split at h
  · rename_i c rest hs
    rw [hs] at hmem
    rw [Bool.and_eq_true, List.all_eq_true] at h
    rcases List.mem_cons.1 hmem with rfl | hrest
    · exact absurd h.1 (by decide)
    · exact absurd (h.2 _ hrest) (by decide)
  · cases h

theorem isDigit_of_mem_toString {n : Int} {c : Char} (h : c ∈ (toString n).toList) :
    c.isDigit = true ∨ c = '-' := by
  have hdigits {m : Nat} (hc : c ∈ Nat.toDigits 10 m) : c.isDigit = true :=
    Nat.isDigit_of_mem_toDigits (by decide) (by decide) hc
  cases n with
  | ofNat m => exact .inl (hdigits (by simpa [toString, Int.repr] using h))
  | negSucc m =>
    have hcases : c = '-' ∨ c ∈ Nat.toDigits 10 (m + 1) := by simpa [toString, Int.repr] using h
    exact hcases.symm.imp_left hdigits

theorem not_mem_toString (n : Int) : '\'' ∉ (toString n).toList := fun h ↦
  (isDigit_of_mem_toString h).elim (by decide) (by decide)

section

variable {field : String} (h : IsPlainName field)
include h

theorem not_mem_asText : '\'' ∉ (asText field).toList := by
  unfold IsPlainName at h
  simp [asText, identifier, h]

theorem isInert_labelSql : IsInert (labelSql field).toList := by
  have heq : (labelSql field).toList = (("COALESCE(".toList ++ (asText field).toList ++ ", ".toList) ++
      (literal "Unknown").toList) ++ ")".toList := by
    have : ", 'Unknown')" = ", " ++ literal "Unknown" ++ ")" := by decide
    rw [labelSql, this]
    simp only [String.toList_append, List.append_assoc]
  rw [heq]
  refine (IsInert.of_literal ?_ (by simp) ?_ _).append (.of_chars (by decide))
  · simp [not_mem_asText h]
  · simp [endsEqual, List.isSuffixOf, List.isPrefixOf]

theorem isInert_asNumber (d : Dialect) : IsInert (asNumber d field).toList := by
  cases d with
  | sqlite =>
    refine .of_chars ?_
    unfold IsPlainName at h
    simp [asNumber, identifier, h]
  | postgresql =>
    have heq : (asNumber .postgresql field).toList =
        (("CASE WHEN ".toList ++ (asText field).toList ++ " ~ ".toList) ++
          (literal "^-?[0-9]+(\\.[0-9]+)?$").toList) ++ (" THEN CAST(".toList ++
          (asText field).toList ++ " AS DOUBLE PRECISION) ELSE 0 END".toList) := by
      have : " ~ '^-?[0-9]+(\\.[0-9]+)?$' THEN CAST(" =
        " ~ " ++ literal "^-?[0-9]+(\\.[0-9]+)?$" ++ " THEN CAST(" := by decide
      rw [asNumber, this]
      simp only [String.toList_append, List.append_assoc]
    rw [heq]
    refine (IsInert.of_literal ?_ (by simp) ?_ _).append (.of_chars ?_)
    · simp [not_mem_asText h]
    · exact endsEqual_append _ (by decide)
    · simp [not_mem_asText h]

end

theorem isInert_dayOf (d : Dialect) : IsInert (dayOf d).toList := by
  cases d with
  | sqlite =>
    have heq : (dayOf .sqlite).toList = ("strftime(".toList ++ (literal "%Y-%m-%d").toList) ++
        (", ".toList ++ (identifier timeField).toList ++ ")".toList) := by decide
    rw [heq]
    exact (IsInert.of_literal (by decide) (by decide) (by decide) _).append
      (.of_chars (by decide))
  | postgresql =>
    have heq : (dayOf .postgresql).toList =
        (("to_char(" ++ identifier timeField ++ ", ").toList ++ (literal "YYYY-MM-DD").toList) ++
          ")".toList := by decide
    rw [heq]
    exact (IsInert.of_literal (by decide) (by decide) (by decide) _).append
      (.of_chars (by decide))

/-- The fields of a metric have plain names. -/
def Metric.IsPlain : Metric → Prop
  | .events | .sessions => True
  | .sum field | .average field => IsPlainName field

def Grouping.IsPlain : Grouping → Prop
  | .flow source target => IsPlainName source ∧ IsPlainName target
  | .days => True
  | .values field => IsPlainName field

theorem Metric.isInert_sql {m : Metric} (h : m.IsPlain) (d : Dialect) :
    IsInert (m.sql d).toList := by
  cases m with
  | events => exact .of_chars (by simp [Metric.sql])
  | sessions => exact .of_chars (by simp [Metric.sql, identifier])
  | sum field =>
    simp only [Metric.sql, String.toList_append]
    exact ((IsInert.of_chars (by decide)).append (isInert_asNumber h d)).append
      (.of_chars (by decide))
  | average field =>
    simp only [Metric.sql, String.toList_append]
    exact ((IsInert.of_chars (by decide)).append (isInert_asNumber h d)).append
      (.of_chars (by decide))

namespace Condition

def IsPlain : Condition → Prop
  | .number field _ | .text field _ => IsPlainName field
  | .since _ | .before _ => True

/-- The text of a condition without the content of its literal. -/
def shape : Condition → List Char
  | .number field n => (Condition.number field n).sql.toList
  | .since _ => (identifier timeField ++ " >= ''").toList
  | .before _ => (identifier timeField ++ " < ''").toList
  | .text field _ => (asText field ++ " = ''").toList

/-- The value that a field has to equal, if it is a text. -/
def value? : Condition → Option (List Char)
  | .text _ value => some value.toList
  | .number .. | .since _ | .before _ => none

theorem isPhrase_sql {c : Condition} (h : c.IsPlain) :
    IsPhrase c.sql.toList ∧ blanked c.sql.toList = c.shape ∧
      equalityLiterals c.sql.toList = (c.value?.map doubled).toList := by
  have hday (s day : String) (hs : '\'' ∉ s.toList) (hlen : 3 ≤ s.toList.length)
      (hk : endsEqual s.toList = false) :
      IsPhrase (s ++ literal day).toList ∧
        blanked (s ++ literal day).toList = (s ++ "''").toList ∧
        equalityLiterals (s ++ literal day).toList = [] := by
    simpa [literal, hk] using IsPhrase.of_literal hs hlen day.toList
  cases c with
  | number field n =>
    have hchars : '\'' ∉ (Condition.number field n).sql.toList := by
      have hn := not_mem_toString n
      unfold IsPlain IsPlainName at h
      simp only [Condition.sql, identifier, String.toList_append, List.mem_append, not_or]
      exact ⟨⟨⟨⟨by decide, h⟩, by decide⟩, by decide⟩, hn⟩
    exact IsPhrase.of_chars hchars
  | since day =>
    exact hday (identifier timeField ++ " >= ") _ (by decide) (by decide) (by decide)
  | before day =>
    exact hday (identifier timeField ++ " < ") _ (by decide) (by decide) (by decide)
  | text field value =>
    have hend : endsEqual (asText field ++ " = ").toList = true := by
      rw [String.toList_append]
      exact endsEqual_append _ (by decide)
    have := IsPhrase.of_literal (x := (asText field ++ " = ").toList) (by simp [not_mem_asText h])
      (by simp) value.toList
    rw [hend] at this
    simpa [Condition.sql, literal, shape, value?] using this

end Condition

/-- Phrases joined by a separator. -/
theorem isPhrase_join (sep : String) (hsep : '\'' ∉ sep.toList) {parts : List String}
    (h : ∀ s ∈ parts, IsPhrase s.toList) :
    IsPhrase (sep.intercalate parts).toList ∧
      blanked (sep.intercalate parts).toList =
        sep.toList.intercalate (parts.map (blanked ·.toList)) ∧
      equalityLiterals (sep.intercalate parts).toList =
        parts.flatMap (equalityLiterals ·.toList) := by
  have hparts : ∀ a ∈ parts.map String.toList, IsPhrase a := by simpa using h
  simpa only [String.toList_intercalate, List.map_map, List.flatMap_map, Function.comp_def] using
    IsPhrase.intercalate hsep hparts

/-- The parts of a query that state its conditions, without the contents of literals. -/
def whereShape (cs : List Condition) : List (List Char) :=
  if cs.isEmpty then []
  else ["WHERE ".toList ++ " AND ".toList.intercalate (cs.map Condition.shape)]

theorem isPhrase_whereSql {cs : List Condition} (h : ∀ c ∈ cs, c.IsPlain) :
    (∀ s ∈ whereSql cs, IsPhrase s.toList) ∧
      (whereSql cs).map (blanked ·.toList) = whereShape cs ∧
      (whereSql cs).flatMap (equalityLiterals ·.toList) =
        (cs.filterMap Condition.value?).map doubled := by
  have hc (c : Condition) (hmem : c ∈ cs) := Condition.isPhrase_sql (h c hmem)
  have hwhere := IsPhrase.of_chars (a := "WHERE ".toList) (by decide)
  have hparts : ∀ s ∈ cs.map Condition.sql, IsPhrase s.toList := by
    simpa using fun c hmem ↦ (hc c hmem).1
  obtain ⟨hp, hb, he⟩ := isPhrase_join " AND " (by decide) hparts
  have hshapes : (cs.map Condition.sql).map (blanked ·.toList) = cs.map Condition.shape := by
    rw [List.map_map]
    exact List.map_congr_left fun c hmem ↦ (hc c hmem).2.1
  have hvalues : (cs.map Condition.sql).flatMap (equalityLiterals ·.toList) =
      (cs.filterMap Condition.value?).map doubled := by
    rw [List.flatMap_map, List.map_filterMap, List.filterMap_eq_flatMap_toList]
    exact List.flatMap_congr fun c hmem ↦ (hc c hmem).2.2
  unfold whereSql whereShape
  split
  · rename_i hempty
    simp [List.isEmpty_iff.1 hempty]
  · simp only [List.mem_singleton, forall_eq, List.map_cons, List.map_nil, List.flatMap_cons,
      List.flatMap_nil, List.append_nil, String.toList_append]
    refine ⟨hwhere.1.append hp, ?_, ?_⟩
    · rw [hwhere.1.blanked_append hp.opens, hwhere.2.1, hb, hshapes]
    · rw [hwhere.1.equalityLiterals_append hp, hwhere.2.2, he, hvalues, List.nil_append]

theorem isInert_around {a b s : String} (ha : '\'' ∉ a.toList) (h : IsInert s.toList)
    (hb : '\'' ∉ b.toList) : IsInert (a ++ s ++ b).toList := by
  rw [String.toList_append, String.toList_append]
  exact ((IsInert.of_chars ha).append h).append (.of_chars hb)

/-- Around its conditions a query has no equations with literals. -/
theorem exists_text_eq (d : Dialect) {g : Grouping} (hg : g.IsPlain) {m : Metric} (hm : m.IsPlain)
    (limit : Int) :
    ∃ head tail : List String, (∀ s ∈ head ++ tail, IsInert s.toList) ∧
      ∀ cs, (ChartQuery.mk d g m cs limit).text =
        " ".intercalate (head ++ whereSql cs ++ tail) := by
  have hmetric (a : String) (ha : '\'' ∉ a.toList) : IsInert (m.sql d ++ a).toList := by
    rw [String.toList_append]
    exact (Metric.isInert_sql hm d).append (.of_chars ha)
  have hfrom : IsInert "FROM site_events".toList := .of_chars (by decide)
  have hlimit : IsInert ("LIMIT " ++ toString limit).toList := by
    rw [String.toList_append]
    exact (IsInert.of_chars (by decide)).append (.of_chars (not_mem_toString limit))
  cases g with
  | flow source target =>
    refine ⟨["SELECT " ++ labelSql source ++ " AS source,", labelSql target ++ " AS target,",
      m.sql d ++ " AS value", "FROM site_events"],
      ["GROUP BY 1, 2", "ORDER BY value DESC", "LIMIT " ++ toString limit], ?_, fun cs ↦ ?_⟩
    · simp only [List.cons_append, List.nil_append, List.forall_mem_cons]
      refine ⟨isInert_around (by decide) (isInert_labelSql hg.1) (by decide), ?_,
        hmetric _ (by decide), hfrom, .of_chars (by decide), .of_chars (by decide), hlimit, by simp⟩
      rw [String.toList_append]
      exact (isInert_labelSql hg.2).append (.of_chars (by decide))
    · simp [ChartQuery.text]
  | days =>
    refine ⟨["SELECT " ++ dayOf d ++ " AS x,", m.sql d ++ " AS y", "FROM site_events"],
      ["GROUP BY 1", "ORDER BY 1 ASC"], ?_, fun cs ↦ ?_⟩
    · simp only [List.cons_append, List.nil_append, List.forall_mem_cons]
      exact ⟨isInert_around (by decide) (isInert_dayOf d) (by decide), hmetric _ (by decide),
        hfrom, .of_chars (by decide), .of_chars (by decide), by simp⟩
    · simp [ChartQuery.text]
  | values field =>
    refine ⟨["SELECT " ++ labelSql field ++ " AS x,", m.sql d ++ " AS y", "FROM site_events"],
      ["GROUP BY 1", "ORDER BY y DESC", "LIMIT " ++ toString limit], ?_, fun cs ↦ ?_⟩
    · simp only [List.cons_append, List.nil_append, List.forall_mem_cons]
      exact ⟨isInert_around (by decide) (isInert_labelSql hg) (by decide), hmetric _ (by decide),
        hfrom, .of_chars (by decide), .of_chars (by decide), hlimit, by simp⟩
    · simp [ChartQuery.text]

/-- A query is read as its conditions are, between parts that do not depend on them. -/
theorem exists_reading (d : Dialect) {g : Grouping} (hg : g.IsPlain) {m : Metric} (hm : m.IsPlain)
    (limit : Int) :
    ∃ head tail : List (List Char), ∀ cs : List Condition, (∀ c ∈ cs, c.IsPlain) →
      blanked (ChartQuery.mk d g m cs limit).text.toList =
        " ".toList.intercalate (head ++ whereShape cs ++ tail) ∧
      equalityLiterals (ChartQuery.mk d g m cs limit).text.toList =
        (cs.filterMap Condition.value?).map doubled := by
  obtain ⟨head, tail, hinert, heq⟩ := exists_text_eq d hg hm limit
  refine ⟨head.map (blanked ·.toList), tail.map (blanked ·.toList), fun cs hcs ↦ ?_⟩
  obtain ⟨hp, hb, he⟩ := isPhrase_whereSql hcs
  have hphrase : ∀ s ∈ head ++ whereSql cs ++ tail, IsPhrase s.toList := by
    simp only [List.mem_append] at hinert ⊢
    rintro s ((hs | hs) | hs)
    · exact (hinert s (.inl hs)).toIsPhrase
    · exact hp s hs
    · exact (hinert s (.inr hs)).toIsPhrase
  have hnone (part : List String) (hpart : ∀ s ∈ part, s ∈ head ++ tail) :
      part.flatMap (equalityLiterals ·.toList) = [] :=
    List.flatMap_eq_nil_iff.2 fun s hs ↦ (hinert s (hpart s hs)).equalityLiterals_eq
  obtain ⟨-, hblanked, hvalues⟩ := isPhrase_join " " (by decide) hphrase
  rw [heq cs]
  constructor
  · rw [hblanked, List.map_append, List.map_append, hb]
  · rw [hvalues, List.flatMap_append, List.flatMap_append, he, hnone head (by simp +contextual),
      hnone tail (by simp +contextual), List.nil_append, List.append_nil]

theorem isPlainName_of_checkName {name s : String} {columns : List String}
    (h : checkName name columns = .ok s) : IsPlainName name := by
  refine isPlainName_of_isIdentifier ?_
  by_contra hno
  rw [Bool.not_eq_true] at hno
  simp [checkName, checkField, hno] at h

theorem checkName_of_checkFields {fields columns : List String}
    (h : checkFields fields columns = .ok ()) : ∀ f ∈ fields, ∃ s, checkName f columns = .ok s := by
  induction fields with
  | nil => simp
  | cons f fields ih =>
    have hcons : checkFields (f :: fields) columns =
        ((checkName f columns).map fun _ ↦ ()) >>= fun _ ↦ checkFields fields columns := rfl
    rw [hcons] at h
    obtain ⟨_, hf, hrest⟩ := bind_eq_ok_iff.1 h
    cases hs : checkName f columns with
    | error =>
      rw [hs] at hf
      cases hf
    | ok s => simpa using ⟨⟨s, hs⟩, ih hrest⟩

theorem isPlain_of_referencedFields {w : Widget} (h : ∀ f ∈ referencedFields w, IsPlainName f) :
    (groupingOf w).IsPlain ∧ (metricOf w).IsPlain := by
  constructor
  · unfold groupingOf
    split
    · rename_i hw
      exact ⟨h _ (by simp [referencedFields, groupFields, hw]),
        h _ (by simp [referencedFields, groupFields, hw])⟩
    · split
      · trivial
      · rename_i hw _
        exact h _ (by simp [referencedFields, groupFields, hw])
  · unfold metricOf
    split
    · trivial
    · trivial
    · rename_i hw
      exact h _ (by simp [referencedFields, metricFields, hw])
    · rename_i hw
      exact h _ (by simp [referencedFields, metricFields, hw])

/-- Whether the range of days of some filters is used. -/
def usesRange (f : WidgetFilters) : Bool := (dateOf? f.start).isSome && (dateOf? f.stop).isSome

def activeColumns (f : WidgetFilters) : Finset String := ((activeFilters f).map (·.1)).toFinset

theorem dayConditions_cases {f : WidgetFilters} {cs : List Condition}
    (h : dayConditions f = .ok cs) :
    usesRange f = false ∧ cs = [] ∨ usesRange f = true ∧ ∃ a b, cs = [.since a, .before b] := by
  unfold dayConditions at h
  unfold usesRange
  split at h
  · rename_i a b ha hb
    obtain ⟨c, -, hcs⟩ := bind_eq_ok_iff.1 h
    cases hcs
    exact .inr ⟨by simp [ha, hb], a, c, rfl⟩
  · rename_i hno
    cases h
    refine .inl ⟨?_, rfl⟩
    by_contra hboth
    simp only [Bool.not_eq_false, Bool.and_eq_true, Option.isSome_iff_exists] at hboth
    obtain ⟨⟨a, ha⟩, b, hb⟩ := hboth
    exact hno a b ha hb

/-- A part of a list without repetition is known from its members. -/
theorem filter_eq_of_sublist {l part : List String} (hl : l.Nodup) (hpart : part.Sublist l) :
    l.filter (· ∈ part) = part := by
  induction hpart with
  | slnil => rfl
  | cons a hpart ih =>
    obtain ⟨ha, hl⟩ := List.nodup_cons.1 hl
    rw [List.filter_cons_of_neg (by simpa using fun hmem ↦ ha (hpart.subset hmem)), ih hl]
  | cons_cons a hpart ih =>
    rename_i part l
    obtain ⟨ha, hl⟩ := List.nodup_cons.1 hl
    have hrest : l.filter (· ∈ a :: part) = l.filter (· ∈ part) :=
      List.filter_congr fun b hb ↦ by
        have : b ≠ a := fun heq ↦ ha (heq ▸ hb)
        simp [this]
    rw [List.filter_cons_of_pos (by simp), hrest, ih hl]

theorem map_fst_activeFilters_sublist (f : WidgetFilters) :
    ((activeFilters f).map (·.1)).Sublist ((textFilters f).map (·.1)) := by
  have hactive : (activeFilters f).map (·.1) =
      ((textFilters f).filter (·.2.any (!·.isEmpty))).map (·.1) := by
    rw [activeFilters, ← List.filterMap_eq_map, ← List.filterMap_eq_map, List.filterMap_filterMap,
      ← List.filterMap_eq_filter, List.filterMap_filterMap]
    refine List.filterMap_congr fun p _ ↦ ?_
    rcases p with ⟨name, _ | v⟩
    · rfl
    · by_cases hv : v.isEmpty = true <;> simp [hv, Option.guard]
  rw [hactive]
  exact List.filter_sublist.map _

theorem map_fst_activeFilters_congr {f g : WidgetFilters}
    (h : activeColumns f = activeColumns g) :
    (activeFilters f).map (·.1) = (activeFilters g).map (·.1) := by
  have hnames : ((textFilters f).map (·.1)).Nodup := by simp [textFilters]
  have hmem (a : String) :
      a ∈ (activeFilters f).map (·.1) ↔ a ∈ (activeFilters g).map (·.1) := by
    rw [← List.mem_toFinset, ← List.mem_toFinset]
    exact Finset.ext_iff.1 h a
  calc (activeFilters f).map (·.1)
    _ = ((textFilters f).map (·.1)).filter (· ∈ (activeFilters f).map (·.1)) :=
      (filter_eq_of_sublist hnames (map_fst_activeFilters_sublist f)).symm
    _ = ((textFilters g).map (·.1)).filter (· ∈ (activeFilters g).map (·.1)) :=
      List.filter_congr fun a _ ↦ decide_eq_decide.2 (hmem a)
    _ = (activeFilters g).map (·.1) :=
      filter_eq_of_sublist hnames (map_fst_activeFilters_sublist g)

theorem exists_of_scopeConditions {s : Scope} {cs : List Condition}
    (h : scopeConditions (some s) = .ok cs) :
    ∃ n m, cs = [.number "site_id" n, .number "team_id" m] := by
  obtain ⟨n, -, hn⟩ := bind_eq_ok_iff.1 h
  obtain ⟨m, -, hm⟩ := bind_eq_ok_iff.1 hn
  cases hm
  exact ⟨n, m, rfl⟩

theorem isPlain_scopeConditions {scope : Option Scope} {cs : List Condition}
    (h : scopeConditions scope = .ok cs) :
    (∀ c ∈ cs, c.IsPlain) ∧ cs.filterMap Condition.value? = [] := by
  cases scope with
  | none =>
    cases h
    simp
  | some s =>
    obtain ⟨n, m, rfl⟩ := exists_of_scopeConditions h
    simp [Condition.IsPlain, IsPlainName, Condition.value?]

/-- The conditions of filters: those of the range of days, if it is used, and those of texts. -/
theorem filterConditions_cases {f : WidgetFilters} {cs : List Condition}
    (h : filterConditions (some f) = .ok cs) :
    (∀ c ∈ cs, c.IsPlain) ∧
      cs.filterMap Condition.value? = (activeFilters f).map (·.2.toList) ∧
      cs.map Condition.shape =
        (if usesRange f then [(identifier timeField ++ " >= ''").toList,
          (identifier timeField ++ " < ''").toList] else []) ++
        ((activeFilters f).map (·.1)).map fun c ↦ (asText c ++ " = ''").toList := by
  obtain ⟨days, hdays, hcs⟩ := bind_eq_ok_iff.1 h
  cases hcs
  have htext : ∀ c ∈ textConditions f, c.IsPlain := by
    intro c hc
    obtain ⟨p, hp, rfl⟩ := List.mem_map.1 hc
    have hname := (map_fst_activeFilters_sublist f).subset (List.mem_map_of_mem hp)
    have hplain : ∀ s ∈ (textFilters f).map (·.1), IsPlainName s := by
      simp [textFilters, IsPlainName]
    exact hplain _ hname
  have hvalues : (textConditions f).filterMap Condition.value? =
      (activeFilters f).map (·.2.toList) := by
    simp [textConditions, List.filterMap_map, Condition.value?, Function.comp_def]
  have hshapes : (textConditions f).map Condition.shape =
      ((activeFilters f).map (·.1)).map fun c ↦ (asText c ++ " = ''").toList := by
    simp [textConditions, Condition.shape]
  rcases dayConditions_cases hdays with ⟨huses, rfl⟩ | ⟨huses, a, b, rfl⟩
  · simpa [huses, hshapes, hvalues] using htext
  · refine ⟨?_, hvalues, by simp [huses, hshapes, Condition.shape]⟩
    simpa only [List.cons_append, List.nil_append, List.forall_mem_cons] using
      ⟨trivial, trivial, htext⟩

/-- What a compiled query is made of. -/
theorem compile_parts {w : Widget} {columns : List String} {filters : Option WidgetFilters}
    {dialect : Value} {scope : Option Scope} {q : ChartQuery}
    (h : compile w columns filters dialect scope = .ok q) :
    ∃ d tenant filtered, Dialect.ofValue dialect = .ok d ∧
      (∀ f ∈ referencedFields w, ∃ s, checkName f columns = .ok s) ∧
      scopeConditions scope = .ok tenant ∧ filterConditions filters = .ok filtered ∧
      q = ⟨d, groupingOf w, metricOf w, tenant ++ filtered, rowLimit w.limit⟩ := by
  simp only [compile, bind_eq_ok_iff, mapError_eq_ok_iff] at h
  obtain ⟨d, hd, _, hfields, tenant, htenant, filtered, hfiltered, hq⟩ := h
  cases hq
  exact ⟨d, tenant, filtered, hd, checkName_of_checkFields hfields, htenant, hfiltered, rfl⟩

/-- A query that was compiled over some filters. -/
theorem compile_cases {w : Widget} {columns : List String} {f : WidgetFilters} {dialect : Value}
    {scope : Option Scope} {q : ChartQuery}
    (h : compile w columns (some f) dialect scope = .ok q) :
    ∃ d tenant filtered, Dialect.ofValue dialect = .ok d ∧
      (groupingOf w).IsPlain ∧ (metricOf w).IsPlain ∧ scopeConditions scope = .ok tenant ∧
      filterConditions (some f) = .ok filtered ∧
      q = ⟨d, groupingOf w, metricOf w, tenant ++ filtered, rowLimit w.limit⟩ := by
  obtain ⟨d, tenant, filtered, hd, hfields, htenant, hfiltered, hq⟩ := compile_parts h
  obtain ⟨hg, hm⟩ := isPlain_of_referencedFields fun f hf ↦
    isPlainName_of_checkName (hfields f hf).choose_spec
  exact ⟨d, tenant, filtered, hd, hg, hm, htenant, hfiltered, hq⟩

/-- Values of filters cannot change the shape of a query: it depends on which filters are active,
and the values can be read back from the literals that columns have to equal. -/
theorem compile_keeps_shape {w : Widget} {columns : List String} {f : WidgetFilters}
    {dialect : Value} {scope : Option Scope} {q : ChartQuery}
    (h : compile w columns (some f) dialect scope = .ok q) :
    (equalityLiterals q.text.toList).map halved = (activeFilters f).map (·.2.toList) ∧
      ∀ g q', compile w columns (some g) dialect scope = .ok q' →
        activeColumns f = activeColumns g → usesRange f = usesRange g →
        blanked q.text.toList = blanked q'.text.toList := by
  obtain ⟨d, tenant, filtered, hd, hg, hm, htenant, hfiltered, rfl⟩ := compile_cases h
  obtain ⟨head, tail, hread⟩ := exists_reading d hg hm (rowLimit w.limit)
  obtain ⟨hplain, hnone⟩ := isPlain_scopeConditions htenant
  obtain ⟨hplain', hvalues, hshapes⟩ := filterConditions_cases hfiltered
  have hall : ∀ c ∈ tenant ++ filtered, c.IsPlain := fun c hc ↦
    (List.mem_append.1 hc).elim (hplain c) (hplain' c)
  refine ⟨?_, fun g q' h' hactive hrange ↦ ?_⟩
  · rw [(hread _ hall).2, List.filterMap_append, hnone, hvalues, List.nil_append, List.map_map]
    simp
  · obtain ⟨d', tenant', filtered', hd', -, -, htenant', hfiltered', rfl⟩ := compile_cases h'
    obtain rfl : d = d' := by simpa [hd] using hd'
    obtain rfl : tenant = tenant' := by simpa [htenant] using htenant'
    obtain ⟨hplain'', -, hshapes'⟩ := filterConditions_cases hfiltered'
    have hall' : ∀ c ∈ tenant ++ filtered', c.IsPlain := fun c hc ↦
      (List.mem_append.1 hc).elim (hplain c) (hplain'' c)
    have hsame : (tenant ++ filtered).map Condition.shape =
        (tenant ++ filtered').map Condition.shape := by
      rw [List.map_append, List.map_append, hshapes, hshapes', hrange,
        map_fst_activeFilters_congr hactive]
    have hempty : (tenant ++ filtered).isEmpty = (tenant ++ filtered').isEmpty := by
      simpa only [List.isEmpty_map] using congrArg List.isEmpty hsame
    rw [(hread _ hall).1, (hread _ hall').1, whereShape, whereShape, hsame, hempty]

/-- Filters of one month by the device. -/
def monthFilters (device : String) : WidgetFilters :=
  { start := some "2024-02-01", stop := some "2024-02-29", device := some device }

theorem compile_keeps_shape_quotes :
    ∃ q q' : ChartQuery,
      compile { xField := "country" } ["country"] (some (monthFilters "' OR '1'='1"))
        (.text "sqlite") none = .ok q ∧
      compile { xField := "country" } ["country"] (some (monthFilters "phone"))
        (.text "sqlite") none = .ok q' ∧
      activeColumns (monthFilters "' OR '1'='1") = activeColumns (monthFilters "phone") ∧
      usesRange (monthFilters "' OR '1'='1") = usesRange (monthFilters "phone") ∧
      (equalityLiterals q.text.toList).map halved = ["' OR '1'='1".toList] ∧
      blanked q.text.toList = blanked q'.text.toList := by
  have hactive : activeColumns (monthFilters "' OR '1'='1") = activeColumns (monthFilters "phone") :=
    by decide
  have hrange : usesRange (monthFilters "' OR '1'='1") = usesRange (monthFilters "phone") := rfl
  obtain ⟨q, hq⟩ : ∃ q, compile { xField := "country" } ["country"]
      (some (monthFilters "' OR '1'='1")) (.text "sqlite") none = .ok q := ⟨_, rfl⟩
  obtain ⟨q', hq'⟩ : ∃ q, compile { xField := "country" } ["country"]
      (some (monthFilters "phone")) (.text "sqlite") none = .ok q := ⟨_, rfl⟩
  exact ⟨q, q', hq, hq', hactive, hrange, (compile_keeps_shape hq).1,
    (compile_keeps_shape hq).2 _ _ hq' hactive hrange⟩

end Footfall.Report
