import Footfall.Proofs.Framing
import Footfall.Proofs.Quoting
import Footfall.Backend.Basic

/-!
Compiled queries before the guard. Each part of such a query is calm, whatever the filters are, so
the guard lets the query through as it is, and it sees a limit unless the query is that of a time
series.
-/

namespace Footfall.Report

open Sql

theorem toList_toString_of_nonneg {n : Int} (h : 0 ≤ n) :
    (toString n).toList ≠ [] ∧ ∀ c ∈ (toString n).toList, c.isDigit = true := by
  obtain ⟨m, rfl⟩ := Int.eq_ofNat_of_zero_le h
  have hlist : (toString (m : Int)).toList = Nat.toDigits 10 m := by simp [toString, Int.repr]
  rw [hlist]
  exact ⟨Nat.toDigits_ne_nil, fun c hc ↦ Nat.isDigit_of_mem_toDigits (by decide) (by decide) hc⟩

theorem isCalm_of_mem_columns : ∀ s ∈ Backend.columns, IsCalm s.toList := by
  have hbare : ∀ s ∈ Backend.columns, IsBare s.toList := by decide
  exact fun s hs ↦ .of_bare (hbare s hs)

section

variable {field : String} (hfield : IsCalm field.toList)
include hfield

theorem isCalm_named {a b : List Char} (ha : IsCalm a) (hb : IsCalm b) :
    IsCalm (a ++ '"' :: (field.toList ++ '"' :: b)) :=
  ha.quote (hfield.quote hb)

theorem isCalm_labelSql : IsCalm (labelSql field).toList := by
  have heq : (labelSql field).toList = "COALESCE(CAST(".toList ++ '"' :: (field.toList ++
      '"' :: (" AS TEXT), ".toList ++ (literal "Unknown").toList ++ ")".toList)) := by
    simp [labelSql, asText, identifier, literal, doubled]
  rw [heq]
  refine isCalm_named hfield (.of_bare (by decide)) ?_
  exact .of_literal (by decide) _

theorem isCalm_asNumber (d : Dialect) : IsCalm (asNumber d field).toList := by
  cases d with
  | sqlite =>
    have heq : (asNumber .sqlite field).toList = "COALESCE(CAST(".toList ++ '"' :: (field.toList ++
        '"' :: " AS REAL), 0)".toList) := by
      simp [asNumber, identifier]
    rw [heq]
    exact isCalm_named hfield (.of_bare (by decide)) (.of_bare (by decide))
  | postgresql =>
    have heq : (asNumber .postgresql field).toList = "CASE WHEN CAST(".toList ++ '"' ::
        (field.toList ++ '"' :: ((" AS TEXT) ~ ".toList ++
          (literal "^-?[0-9]+(\\.[0-9]+)?$").toList ++ " THEN CAST(CAST(".toList) ++ '"' ::
        (field.toList ++ '"' :: " AS TEXT) AS DOUBLE PRECISION) ELSE 0 END".toList))) := by
      simp [asNumber, asText, identifier, literal, doubled]
    rw [heq]
    refine isCalm_named hfield (.of_bare (by decide)) ?_
    refine isCalm_named hfield ?_ (.of_bare (by decide))
    exact .of_literal (by decide) _

end

theorem isCalm_dayOf (d : Dialect) : IsCalm (dayOf d).toList := by
  cases d with
  | sqlite =>
    have heq : (dayOf .sqlite).toList = "strftime(".toList ++ (literal "%Y-%m-%d").toList ++
        ", \"created_at\")".toList := by decide
    rw [heq]
    exact .of_literal (by decide) _
  | postgresql =>
    have heq : (dayOf .postgresql).toList = "to_char(\"created_at\", ".toList ++
        (literal "YYYY-MM-DD").toList ++ ")".toList := by decide
    rw [heq]
    exact .of_literal (by decide) _

def Metric.fields : Metric → List String
  | .events | .sessions => []
  | .sum field | .average field => [field]

def Grouping.fields : Grouping → List String
  | .flow source target => [source, target]
  | .days => []
  | .values field => [field]

theorem Metric.isCalm_sql {m : Metric} (h : ∀ f ∈ m.fields, IsCalm f.toList) (d : Dialect) :
    IsCalm (m.sql d).toList := by
  have hcall {name arg : List Char} (hname : IsCalm name) (harg : IsCalm arg) :
      IsCalm (name ++ '(' :: (arg ++ [')'])) :=
    .mark (by decide) hname (.mark (by decide) harg .nil)
  cases m with
  | events => exact .of_bare (a := "COUNT(*)".toList) (by decide)
  | sessions =>
    exact .of_bare (a := "COUNT(DISTINCT \"rid\")".toList) (by decide)
  | sum field =>
    have heq : (Metric.sql d (.sum field)).toList =
        "SUM".toList ++ '(' :: ((asNumber d field).toList ++ [')']) := by
      simp [Metric.sql]
    rw [heq]
    exact hcall (.of_bare (by decide)) (isCalm_asNumber (h field (by simp [fields])) d)
  | average field =>
    have heq : (Metric.sql d (.average field)).toList =
        "AVG".toList ++ '(' :: ((asNumber d field).toList ++ [')']) := by
      simp [Metric.sql]
    rw [heq]
    exact hcall (.of_bare (by decide)) (isCalm_asNumber (h field (by simp [fields])) d)

def Condition.field : Condition → String
  | .number field _ | .text field _ => field
  | .since _ | .before _ => timeField

theorem Condition.isCalm_sql {c : Condition} (h : IsCalm c.field.toList) :
    IsCalm c.sql.toList := by
  have hday {s : String} (hs : '\'' ∉ s.toList ∧ 3 ≤ s.toList.length ∧ '\'' ∉ [] ∧
      IsQuiet (s.toList ++ '\'' :: '\'' :: []) ∧
      Lacks limitWord (s.toList ++ '\'' :: '\'' :: [])) (day : String) :
      IsCalm (s ++ literal day).toList := by
    simpa only [String.toList_append, List.append_nil] using IsCalm.of_literal hs day
  cases c with
  | number field n =>
    have heq : (Condition.number field n).sql.toList =
        [] ++ '"' :: (field.toList ++ '"' :: (" =".toList ++ ' ' :: (toString n).toList)) := by
      simp [Condition.sql, identifier]
    rw [heq]
    refine isCalm_named h .nil (.blank ?_ (.of_digits fun c ↦ isDigit_of_mem_toString))
    exact .of_bare (by decide)
  | since day => exact hday (by decide) _
  | before day => exact hday (by decide) _
  | text field value =>
    have heq : (Condition.text field value).sql.toList = "CAST(".toList ++ '"' :: (field.toList ++
        '"' :: (" AS TEXT) = ".toList ++ (literal value).toList ++ [])) := by
      simp [Condition.sql, asText, identifier]
    rw [heq]
    refine isCalm_named h (.of_bare (by decide)) ?_
    exact .of_literal (by decide) _

theorem toList_join {x y : List String} (hx : x ≠ []) (hy : y ≠ []) :
    (" ".intercalate (x ++ y)).toList =
      (" ".intercalate x).toList ++ ' ' :: (" ".intercalate y).toList := by
  obtain ⟨b, y, rfl⟩ := List.exists_cons_of_ne_nil hy
  simp only [String.toList_intercalate]
  induction x with
  | nil => exact absurd rfl hx
  | cons a x ih =>
    cases x with
    | nil => simp [List.intercalate_cons_cons]
    | cons a' x =>
      have := ih (by simp)
      simp only [List.cons_append, List.map_cons, List.intercalate_cons_cons] at this ⊢
      rw [this]
      simp

theorem isCalm_where {cs : List Condition} (hcs : ∀ c ∈ cs, IsCalm c.sql.toList) :
    IsCalm ("WHERE " ++ " AND ".intercalate (cs.map Condition.sql)).toList := by
  have hword : IsCalm "WHERE".toList := .of_bare (by decide)
  have hand (a b : List Char) (ha : IsCalm a) (hb : IsCalm b) :
      IsCalm (a ++ (" AND ".toList ++ b)) := by
    have hmid : IsCalm "AND".toList := .of_bare (by decide)
    exact ha.blank (hmid.blank hb)
  have heq : ("WHERE " ++ " AND ".intercalate (cs.map Condition.sql)).toList =
      "WHERE".toList ++ ' ' :: " AND ".toList.intercalate (cs.map (·.sql.toList)) := by
    simp [String.toList_intercalate, Function.comp_def]
  rw [heq]
  refine hword.blank (.intercalate hand ?_)
  simpa using hcs

/-- What follows the table's name, up to a limit. -/
theorem isClause_rest {cs : List Condition} (hcs : ∀ c ∈ cs, IsCalm c.sql.toList)
    {g o : String} (hg : IsCalm g.toList) (hgroup : IsClause g.toList) (ho : IsCalm o.toList)
    {d : Char} (hd : o.toList.getLast? = some d) :
    IsCalm (" ".intercalate (whereSql cs ++ [g, o])).toList ∧
      IsClause (" ".intercalate (whereSql cs ++ [g, o])).toList ∧
      (" ".intercalate (whereSql cs ++ [g, o])).toList.getLast? = some d := by
  have hpair : (" ".intercalate [g, o]).toList = g.toList ++ ' ' :: o.toList := by simp
  have hlast (x : List Char) : (x ++ ' ' :: o.toList).getLast? = some d := by
    simp [List.getLast?_append, List.getLast?_cons, hd]
  unfold whereSql
  split
  · obtain ⟨c, hc, hrest⟩ := hgroup
    rw [List.nil_append, hpair]
    exact ⟨hg.blank ho, ⟨c, by rw [List.head?_append, hc, Option.some_or], hrest⟩, hlast _⟩
  · rw [toList_join (by simp) (by simp), hpair, String.intercalate_singleton]
    refine ⟨(isCalm_where hcs).blank (hg.blank ho), ⟨'W', ?_, by decide⟩, ?_⟩
    · simp
    · rw [← List.cons_append, ← List.append_assoc]
      exact hlast _

/-- What a query selects. -/
def outputs (d : Dialect) (m : Metric) : Grouping → List Char
  | .flow source target =>
    (labelSql source).toList ++ ' ' :: ("AS source,".toList ++ ' ' ::
      ((labelSql target).toList ++ ' ' :: ("AS target,".toList ++ ' ' ::
        ((m.sql d).toList ++ ' ' :: "AS value".toList))))
  | .days =>
    (dayOf d).toList ++ ' ' :: ("AS x,".toList ++ ' ' :: ((m.sql d).toList ++ ' ' :: "AS y".toList))
  | .values field =>
    (labelSql field).toList ++ ' ' :: ("AS x,".toList ++ ' ' ::
      ((m.sql d).toList ++ ' ' :: "AS y".toList))

/-- How a query arranges what it selects: the groups and the order. -/
def arrangement : Grouping → String × String
  | .flow .. => ("GROUP BY 1, 2", "ORDER BY value DESC")
  | .days => ("GROUP BY 1", "ORDER BY 1 ASC")
  | .values _ => ("GROUP BY 1", "ORDER BY y DESC")

/-- What follows the table's name in a query, up to a limit. -/
def afterTable (cs : List Condition) (g : Grouping) : List Char :=
  (" ".intercalate (whereSql cs ++ [(arrangement g).1, (arrangement g).2])).toList

theorem toList_select {s r : List String} {a : List Char}
    (hs : (" ".intercalate s).toList = "SELECT".toList ++ ' ' :: a) (hne : s ≠ []) (hr : r ≠ []) :
    (" ".intercalate (s ++ "FROM site_events" :: r)).toList =
      framed (a ++ ' ' :: "FROM".toList) (" ".intercalate r).toList := by
  have hfrom : "FROM site_events".toList = "FROM".toList ++ ' ' :: tableName := by decide
  have htable : (" ".intercalate ("FROM site_events" :: r)).toList =
      "FROM site_events".toList ++ ' ' :: (" ".intercalate r).toList :=
    toList_join (x := ["FROM site_events"]) (by simp) hr
  rw [toList_join hne (by simp), htable, hs, hfrom]
  simp [framed]

theorem toList_limited (limit : Int) (cs : List Condition) (g : Grouping) :
    (" ".intercalate (whereSql cs ++
        [(arrangement g).1, (arrangement g).2, "LIMIT " ++ toString limit])).toList =
      afterTable cs g ++ ' ' :: limitClause (toString limit).toList := by
  have hsplit : whereSql cs ++ [(arrangement g).1, (arrangement g).2, "LIMIT " ++ toString limit] =
      (whereSql cs ++ [(arrangement g).1, (arrangement g).2]) ++ ["LIMIT " ++ toString limit] := by
    simp
  rw [hsplit, toList_join (by simp) (by simp), afterTable]
  simp [limitClause]

/-- Only a time series states no limit. -/
theorem toList_text (q : ChartQuery) :
    q.text.toList = framed (outputs q.dialect q.metric q.grouping ++ ' ' :: "FROM".toList)
      (if q.grouping = .days then afterTable q.conditions q.grouping
      else afterTable q.conditions q.grouping ++ ' ' :: limitClause (toString q.limit).toList) := by
  obtain ⟨d, g, m, cs, limit⟩ := q
  -- the grouping decides what is selected, how it is arranged and whether a limit is stated
  cases g with
  | flow source target =>
    have htext : (ChartQuery.mk d (.flow source target) m cs limit).text = " ".intercalate
        (["SELECT " ++ labelSql source ++ " AS source,", labelSql target ++ " AS target,",
          m.sql d ++ " AS value"] ++ "FROM site_events" :: (whereSql cs ++
            [(arrangement (.flow source target)).1, (arrangement (.flow source target)).2,
              "LIMIT " ++ toString limit])) := by
      simp [ChartQuery.text, arrangement]
    rw [htext, toList_select (a := outputs d m (.flow source target)) (by simp [outputs]) (by simp)
      (by simp), toList_limited]
    rfl
  | days =>
    have htext : (ChartQuery.mk d .days m cs limit).text = " ".intercalate
        (["SELECT " ++ dayOf d ++ " AS x,", m.sql d ++ " AS y"] ++ "FROM site_events" ::
          (whereSql cs ++ [(arrangement .days).1, (arrangement .days).2])) := by
      simp [ChartQuery.text, arrangement]
    rw [htext, toList_select (a := outputs d m .days) (by simp [outputs]) (by simp) (by simp)]
    rfl
  | values field =>
    have htext : (ChartQuery.mk d (.values field) m cs limit).text = " ".intercalate
        (["SELECT " ++ labelSql field ++ " AS x,", m.sql d ++ " AS y"] ++ "FROM site_events" ::
          (whereSql cs ++ [(arrangement (.values field)).1, (arrangement (.values field)).2,
            "LIMIT " ++ toString limit])) := by
      simp [ChartQuery.text, arrangement]
    rw [htext, toList_select (a := outputs d m (.values field)) (by simp [outputs]) (by simp)
      (by simp), toList_limited]
    rfl

theorem isCalm_outputs {d : Dialect} {m : Metric} {g : Grouping}
    (hm : ∀ f ∈ m.fields, IsCalm f.toList) (hg : ∀ f ∈ g.fields, IsCalm f.toList) :
    IsCalm (outputs d m g) := by
  have hmetric := Metric.isCalm_sql hm d
  have hx : IsCalm "AS x,".toList := .of_bare (by decide)
  have hy : IsCalm "AS y".toList := .of_bare (by decide)
  cases g with
  | flow source target =>
    have hsource := isCalm_labelSql (hg source (by simp [Grouping.fields]))
    have htarget := isCalm_labelSql (hg target (by simp [Grouping.fields]))
    have hsource' : IsCalm "AS source,".toList := .of_bare (by decide)
    have htarget' : IsCalm "AS target,".toList := .of_bare (by decide)
    have hvalue : IsCalm "AS value".toList := .of_bare (by decide)
    exact hsource.blank (hsource'.blank (htarget.blank (htarget'.blank (hmetric.blank hvalue))))
  | days => exact (isCalm_dayOf d).blank (hx.blank (hmetric.blank hy))
  | values field =>
    exact (isCalm_labelSql (hg field (by simp [Grouping.fields]))).blank
      (hx.blank (hmetric.blank hy))

theorem isClause_arrangement (g : Grouping) :
    IsCalm (arrangement g).1.toList ∧ IsCalm (arrangement g).2.toList ∧
      IsClause (arrangement g).1.toList ∧ (arrangement g).2.toList.getLast? = some 'C' := by
  have hbare : ∀ s ∈ ["GROUP BY 1", "GROUP BY 1, 2", "ORDER BY value DESC", "ORDER BY 1 ASC",
      "ORDER BY y DESC"], IsBare s.toList := by
    decide
  refine ⟨.of_bare (hbare _ ?_), .of_bare (hbare _ ?_), ⟨'G', ?_, by decide⟩, ?_⟩ <;>
    cases g <;> simp [arrangement]

/-- A query over calm names passes the guard as it is, and the guard sees its limit. -/
theorem check_text {q : ChartQuery} (hg : ∀ f ∈ q.grouping.fields, IsCalm f.toList)
    (hm : ∀ f ∈ q.metric.fields, IsCalm f.toList)
    (hcs : ∀ c ∈ q.conditions, IsCalm c.field.toList) (hlimit : 0 ≤ q.limit) :
    check q.text.toList = .ok q.text.toList ∧
      hasLimit q.text.toList = decide (q.grouping ≠ .days) := by
  obtain ⟨hgroup, horder, hopens, hlast⟩ := isClause_arrangement q.grouping
  obtain ⟨hz, hclause, hend⟩ := isClause_rest (fun c hc ↦ Condition.isCalm_sql (hcs c hc))
    hgroup hopens horder hlast
  have hfrom : IsCalm "FROM".toList := .of_bare (by decide)
  have ha := (isCalm_outputs (d := q.dialect) hm hg).blank hfrom
  rw [toList_text]
  split
  · rename_i hdays
    refine ⟨check_framed ha hz.toIsPhrase hz.isQuiet hclause hend (by decide) (by decide), ?_⟩
    rw [afterTable, hasLimit_framed ha hz]
    simp [hdays]
  · rename_i hother
    obtain ⟨hne, hdigits⟩ := toList_toString_of_nonneg hlimit
    obtain ⟨hcheck, hsees⟩ := check_limitClause hdigits ha hz hclause hne
    exact ⟨hcheck, hsees.trans (by simp [hother])⟩

theorem mem_of_checkName {name s : String} {columns : List String}
    (h : checkName name columns = .ok s) : name ∈ columns := by
  by_contra hno
  simp only [checkName, checkField, hno, if_false] at h
  split at h <;> cases h

theorem fields_mem_referencedFields (w : Widget) :
    (∀ f ∈ (groupingOf w).fields, f ∈ referencedFields w) ∧
      ∀ f ∈ (metricOf w).fields, f ∈ referencedFields w := by
  constructor
  · unfold groupingOf
    split
    · rename_i hw
      simp [Grouping.fields, referencedFields, groupFields, hw]
    · split
      · simp [Grouping.fields]
      · rename_i hw _
        simp [Grouping.fields, referencedFields, groupFields, hw]
  · unfold metricOf
    split <;> rename_i hw <;> simp [Metric.fields, referencedFields, metricFields, hw]

theorem field_mem_of_scopeConditions {scope : Option Scope} {cs : List Condition}
    (h : scopeConditions scope = .ok cs) : ∀ c ∈ cs, c.field ∈ Backend.columns := by
  cases scope with
  | none =>
    cases h
    simp
  | some s =>
    obtain ⟨n, m, rfl⟩ := exists_of_scopeConditions h
    have hsite : "site_id" ∈ Backend.columns := by decide
    have hteam : "team_id" ∈ Backend.columns := by decide
    simpa [Condition.field] using ⟨hsite, hteam⟩

theorem field_mem_of_filterConditions {filters : Option WidgetFilters} {cs : List Condition}
    (h : filterConditions filters = .ok cs) : ∀ c ∈ cs, c.field ∈ Backend.columns := by
  cases filters with
  | none =>
    cases h
    simp
  | some f =>
    obtain ⟨days, hdays, hcs⟩ := bind_eq_ok_iff.1 h
    cases hcs
    have htext : ∀ c ∈ textConditions f, c.field ∈ Backend.columns := by
      intro c hc
      obtain ⟨p, hp, rfl⟩ := List.mem_map.1 hc
      have hname := (map_fst_activeFilters_sublist f).subset (List.mem_map_of_mem hp)
      have hnames : ∀ s ∈ (textFilters f).map (·.1), s ∈ Backend.columns := by
        simp only [textFilters, List.map_cons, List.map_nil]
        decide
      exact hnames _ hname
    have htime : timeField ∈ Backend.columns := by decide
    rcases dayConditions_cases hdays with ⟨-, rfl⟩ | ⟨-, a, b, rfl⟩
    · exact htext
    · simpa only [List.cons_append, List.nil_append, List.forall_mem_cons] using
        ⟨htime, htime, htext⟩

theorem groupingOf_eq_days {w : Widget} :
    groupingOf w = .days ↔ w.chart ≠ .sankey ∧ w.xField = timeField := by
  unfold groupingOf
  split_ifs with hsankey htime <;> simp [*]

theorem scope_eq {t : String} (ht : t.toList.head? = some 'S') (embedded : Bool) (site : Int)
    (team : Option Int) :
    scope t embedded site team =
      "WITH " ++ scopeExpression (if embedded then "main.site_events" else "site_events")
        site team ++ " " ++ t := by
  obtain ⟨rest, hrest⟩ := List.head?_eq_some_iff.1 ht
  have hwith : afterLeadingWord "with".toList t.toList = none := by
    rw [hrest]
    rfl
  rw [scope, hwith]

section

variable {w : Widget} {filters : Option WidgetFilters} {dialect : Value} {tenant : Option Scope}
  {q : ChartQuery}

/-- The guard takes a compiled query as it is, and sees a limit in it unless it is a time series. -/
theorem check_of_compile (h : compile w Backend.columns filters dialect tenant = .ok q) :
    check q.text.toList = .ok q.text.toList ∧
      hasLimit q.text.toList = decide (groupingOf w ≠ .days) := by
  obtain ⟨d, cs, cs', -, hfields, htenant, hfiltered, hq⟩ := compile_parts h
  have hcolumn (f : String) (hf : f ∈ referencedFields w) : IsCalm f.toList :=
    isCalm_of_mem_columns f (mem_of_checkName (hfields f hf).choose_spec)
  obtain ⟨hg, hm⟩ := fields_mem_referencedFields w
  have hconditions : ∀ c ∈ cs ++ cs', IsCalm c.field.toList := fun c hc ↦
    isCalm_of_mem_columns _ <| (List.mem_append.1 hc).elim
      (field_mem_of_scopeConditions htenant c) (field_mem_of_filterConditions hfiltered c)
  have hlimit : 0 ≤ rowLimit w.limit := by
    have := (rowLimit_mem w.limit).1
    omega
  subst hq
  exact check_text (fun f hf ↦ hcolumn f (hg f hf)) (fun f hf ↦ hcolumn f (hm f hf)) hconditions
    hlimit

theorem checkText_of_compile (h : compile w Backend.columns filters dialect tenant = .ok q) :
    checkText q.text = .ok q.text := by
  simp [checkText, (check_of_compile h).1]

end

/-- Every compiled query passes the guard as it is. A limit is appended exactly to a time series,
and a scope is put in front of what there is then. -/
theorem compile_admitted {w : Widget} {filters : Option WidgetFilters} {dialect : Value}
    {tenant : Option Scope} {q : ChartQuery}
    (h : compile w Backend.columns filters dialect tenant = .ok q) :
    checkText q.text = .ok q.text ∧ ∀ m : Int,
      limitRows q.text m = (if w.chart ≠ .sankey ∧ w.xField = timeField
        then q.text ++ " LIMIT " ++ toString m else q.text) ∧
      ∀ (embedded : Bool) (site : Int) (team : Option Int),
        scope (limitRows q.text m) embedded site team =
          "WITH " ++ scopeExpression (if embedded then "main.site_events" else "site_events")
            site team ++ " " ++ limitRows q.text m := by
  have hlimited (m : Int) : limitRows q.text m = if w.chart ≠ .sankey ∧ w.xField = timeField
      then q.text ++ " LIMIT " ++ toString m else q.text := by
    rw [limitRows, (check_of_compile h).2]
    by_cases hdays : groupingOf w = .days
    · rw [if_pos (groupingOf_eq_days.1 hdays)]
      simp [hdays]
    · rw [if_neg fun hseries ↦ hdays (groupingOf_eq_days.2 hseries)]
      simp [hdays]
  have hopens : q.text.toList.head? = some 'S' := by
    rw [toList_text]
    rfl
  refine ⟨checkText_of_compile h, fun m ↦ ⟨hlimited m, scope_eq ?_⟩⟩
  rw [hlimited m]
  split
  · rw [String.toList_append, String.toList_append, List.head?_append, List.head?_append, hopens,
      Option.some_or, Option.some_or]
  · exact hopens

/-- Filters that try to end the query, to write, to state a limit and to name another table. -/
def hostileFilters : WidgetFilters :=
  { start := some "2024-02-01", stop := some "2024-02-29", country := some "limit 5",
    device := some "'; DROP TABLE site_events; --", city := some "x'.site_events",
    event := some "''" }

theorem compile_admitted_hostile :
    ∃ q, compile { xField := "created_at", aggregation := .sum, yField := "screen_width" }
        Backend.columns (some hostileFilters) (.text "postgresql") (some ⟨.int 1, .int 2⟩) = .ok q ∧
      checkText q.text = .ok q.text ∧ limitRows q.text 100 = q.text ++ " LIMIT 100" ∧
      scope (limitRows q.text 100) true 1 (some 2) =
        "WITH site_events AS (SELECT * FROM main.site_events WHERE site_id = 1 AND team_id = 2) " ++
          (q.text ++ " LIMIT 100") := by
  obtain ⟨q, hq⟩ : ∃ q, compile
      { xField := "created_at", aggregation := .sum, yField := "screen_width" } Backend.columns
      (some hostileFilters) (.text "postgresql") (some ⟨.int 1, .int 2⟩) = .ok q := ⟨_, rfl⟩
  obtain ⟨hcheck, hrest⟩ := compile_admitted hq
  obtain ⟨hlimit, hscope⟩ := hrest 100
  have hlimited : limitRows q.text 100 = q.text ++ " LIMIT 100" := by
    rw [hlimit, if_pos (by decide), String.append_assoc]
    rfl
  refine ⟨q, hq, hcheck, hlimited, ?_⟩
  rw [hscope true 1 (some 2), hlimited]
  congr 1

end Footfall.Report
