import Footfall.Proofs.Appending
import Footfall.Proofs.Charting
import Footfall.Proofs.Owners
import Footfall.Proofs.Statements

/-!
How many rows a query puts out. A database is known only to keep the limit that a text ends in and
to run no text that breaks off inside a literal or a name. A query in which the store sees no limit
is then given one that the database sees, unless the query ends inside a comment.
-/

namespace Footfall

namespace Sql

/-- What a database puts out for the text of a query over the rows that the query sees; none when it
cannot run it. -/
abbrev Engine := String → Table → Option (List Fields)

/-- The last tokens of a text are the word of a limit and a whole number. -/
def EndsInLimit (text : List Char) (n : Nat) : Prop :=
  ∃ before w ds, Token.scan text = before ++ [.word w, .number ds] ∧
    Token.isWord "limit" (.word w) = true ∧ (∀ d ∈ ds, d.isDigit = true) ∧ Text.natural ds = n

/-- A database that keeps the limit at the end of a text, and runs no text that breaks off. -/
structure Engine.KeepsLimits (engine : Engine) : Prop where
  unfinished : ∀ {text t}, .unfinished ∈ Token.scan text.toList → engine text t = none
  limit : ∀ {text t n rows}, EndsInLimit text.toList n → engine text t = some rows →
    rows.length ≤ n

theorem toList_limitRows {q : String} (hlimit : hasLimit q.toList = false) (n : Nat) :
    (limitRows q n).toList = q.toList ++ ' ' :: ("LIMIT ".toList ++ Nat.toDigits 10 n) := by
  have hdigits : (toString (n : Int)).toList = Nat.toDigits 10 n := by simp [toString, Int.repr]
  rw [limitRows, hlimit, if_neg Bool.false_ne_true, String.toList_append, String.toList_append,
    hdigits, List.append_assoc]
  rfl

theorem isDigit_of_mem_toDigits {n : Nat} : ∀ d ∈ Nat.toDigits 10 n, d.isDigit = true :=
  fun _ hd ↦ Nat.isDigit_of_mem_toDigits (by decide) (by decide) hd

/-- The limit that is given to a query is seen by the database. -/
theorem endsInLimit_limitRows {q : String} (hlimit : hasLimit q.toList = false)
    (hopen : ¬EndsInComment q.toList) (hfinished : .unfinished ∉ Token.scan q.toList) (n : Nat) :
    EndsInLimit (limitRows q n).toList n := by
  refine ⟨Token.scan q.toList, "LIMIT".toList, Nat.toDigits 10 n, ?_, by decide,
    isDigit_of_mem_toDigits, Text.natural_toDigits n⟩
  rw [toList_limitRows hlimit, Token.scan_append hopen hfinished,
    scan_limit Nat.toDigits_ne_nil isDigit_of_mem_toDigits]

theorem Engine.KeepsLimits.length_le {engine : Engine} (h : engine.KeepsLimits) {q : String}
    (hlimit : hasLimit q.toList = false) (hopen : ¬EndsInComment q.toList) {n : Nat} {t : Table}
    {rows : List Fields} (hrows : engine (limitRows q n) t = some rows) : rows.length ≤ n := by
  -- a text that breaks off is not run with the limit behind it either
  by_cases hfinished : .unfinished ∈ Token.scan q.toList
  · have hmem : .unfinished ∈ Token.scan (limitRows q n).toList := by
      rw [toList_limitRows hlimit]
      exact Token.unfinished_mem_scan_append (isPlain_limit isDigit_of_mem_toDigits) hopen hfinished
    rw [h.unfinished hmem] at hrows
    cases hrows
  · exact h.limit (endsInLimit_limitRows hlimit hopen hfinished n) hrows

/-- The statements that are read off their tokens are run so. -/
theorem keepsLimits_answer? : Engine.KeepsLimits answer? := by
  constructor
  · intro text t h
    cases hrows : answer? text t with
    | none => rfl
    | some rows =>
      obtain ⟨s, r, hread, -, -⟩ := statement_of_answer? hrows
      obtain ⟨taken, hscan, htaken⟩ := Reader.takes_statement hread
      rw [hscan, List.append_nil] at h
      exact absurd rfl (htaken _ h)
  · rintro text t n rows ⟨before, w, ds, hscan, -, -, rfl⟩ hrows
    obtain ⟨s, r, hread, hrun, hlength⟩ := statement_of_answer? hrows
    rw [hscan] at hread
    rw [hlength]
    exact Statement.length_run (Reader.limit_of_statement hread) hrun

end Sql

/-- The number of rows that a query may put out, of those that are asked for and those allowed. -/
def rowCap (asked : Option Int) (allowed : Int) : Int :=
  match asked with
  | none => allowed
  | some n => if n = 0 then allowed else min n allowed

theorem rowBound_ofWhole (asked : Option Int) (allowed : Int) :
    rowBound (.ofWhole asked) (.int allowed) = .ok (.int (rowCap asked allowed)) := by
  cases asked with
  | none =>
    simp [rowBound, rowCap, Value.ofWhole, Value.ofOption, Value.isTruthy, bind, Except.bind, pure,
      Except.pure]
  | some n => exact rowBound_int n allowed

theorem rowCap_le (asked : Option Int) (allowed : Int) : rowCap asked allowed ≤ allowed := by
  unfold rowCap
  split
  · exact le_rfl
  · split
    · exact le_rfl
    · exact min_le_right ..

theorem rowCap_nonneg {asked : Option Int} {allowed : Int} (hasked : ∀ n, asked = some n → 0 ≤ n)
    (hallowed : 0 ≤ allowed) : 0 ≤ rowCap asked allowed := by
  unfold rowCap
  split
  · exact hallowed
  · split
    · exact hallowed
    · exact le_min (hasked _ rfl) hallowed

namespace TableQuery

variable {engine : Sql.Engine} {q : TableQuery} {checked source : String}

/-- The rows of a query, of which a database runs those that come as texts. -/
def rowsBy (engine : Sql.Engine) (q : TableQuery) (checked : String) (limit : Option Int)
    (t : Table) : Option (List Fields) :=
  match q with
  | .adHoc _ => engine (match limit with | some n => Sql.limitRows checked n | none => checked) t
  | .chart _ => q.rows? checked limit t

def runBy (engine : Sql.Engine) (q : TableQuery) (maxRows : Value) (source : String)
    (view : Except Fault (Table → Table)) (t : Option Table) : Except Failure (List Fields) := do
  let checked ← q.check
  let limit ← (Sql.neededLimit checked maxRows).mapError .fault
  let view ← view.mapError .fault
  match t.bind fun t ↦ q.rowsBy engine checked limit (view t) with
  | some rows => return rows
  | none => throw (.outage (.store source))

theorem runBy_answer? : q.runBy Sql.answer? = q.run := by
  cases q <;> rfl

/-- A query that is run has been let through, and its rows are computed from some table. -/
theorem exists_of_runBy {n : Int} {view : Except Fault (Table → Table)} {t : Option Table}
    {rows : List Fields} (h : q.runBy engine (.int n) source view t = .ok rows) :
    ∃ checked seen, q.check = .ok checked ∧ q.rowsBy engine checked
      (if Sql.hasLimit checked.toList then none else some n) seen = some rows := by
  have hneeded (checked : String) : Sql.neededLimit checked (.int n) =
      .ok (if Sql.hasLimit checked.toList then none else some n) := by
    unfold Sql.neededLimit
    split <;> rfl
  unfold runBy at h
  cases hcheck : q.check with
  | error e => simp [hcheck, bind, Except.bind] at h
  | ok checked =>
    cases view with
    | error f => simp [hcheck, hneeded, Except.mapError, bind, Except.bind] at h
    | ok view =>
      simp only [hcheck, hneeded, Except.mapError, bind, Except.bind] at h
      split at h
      · rename_i rows' hrows
        cases h
        obtain ⟨seen, -, hseen⟩ := Option.bind_eq_some_iff.1 hrows
        exact ⟨checked, view seen, rfl, hseen⟩
      · cases h

end TableQuery

/-- The rows of a query of a store that has a database to run texts. -/
def Connection.runBy (engine : Sql.Engine) (c : Connection) (q : TableQuery) (limit : Value) :
    Except Failure (List Fields) := do
  let bound ← (rowBound limit c.store.maxRows).mapError .fault
  q.runBy engine bound c.prepared.store.source (.ok (·.ofSite c.prepared.store.site))
    c.prepared.table

theorem Connection.fst_run (c : Connection) (q : TableQuery) (limit : Value) :
    (c.run q limit).1 = c.runBy Sql.answer? q limit := by
  unfold run runBy
  rw [TableQuery.runBy_answer?]
  cases rowBound limit c.store.maxRows <;> rfl

def Server.runBy (engine : Sql.Engine) (s : Server) (scope : Scope) (q : TableQuery)
    (limit : Value) : Except Failure (List Fields) := do
  let bound ← (rowBound limit s.maxRows).mapError .fault
  q.runBy engine bound source scope.view s.table

theorem Server.run_eq (s : Server) (scope : Scope) : s.run scope = s.runBy Sql.answer? scope := by
  funext q limit
  simp only [run, runBy, TableQuery.runBy_answer?]

theorem Connection.runBy_eq {engine : Sql.Engine} {allowed : Int} (c : Connection)
    (hc : c.store.maxRows = .int allowed) (q : TableQuery) (asked : Option Int) :
    c.runBy engine q (.ofWhole asked) = q.runBy engine (.int (rowCap asked allowed))
      c.prepared.store.source (.ok (·.ofSite c.prepared.store.site)) c.prepared.table := by
  rw [runBy, hc, rowBound_ofWhole]
  rfl

theorem Server.runBy_eq {engine : Sql.Engine} {allowed : Int} (s : Server)
    (hs : s.maxRows = .int allowed) (scope : Scope) (q : TableQuery) (asked : Option Int) :
    s.runBy engine scope q (.ofWhole asked) =
      q.runBy engine (.int (rowCap asked allowed)) source scope.view s.table := by
  rw [runBy, hs, rowBound_ofWhole]
  rfl

/-- What a runner of queries puts out is capped. A query is given the bound for its limit unless it
has one of its own, and what it then puts out is no more; the chart of a widget has a limit of its
own unless it is a time series. -/
structure IsCapped (allowed : Int) (run : TableQuery → Value → Except Failure (List Fields)) :
    Prop where
  given : ∀ {query checked asked rows}, (∀ n, asked = some n → 0 ≤ n) →
    Sql.checkText query = .ok checked → Sql.hasLimit checked.toList = false →
    ¬Sql.EndsInComment checked.toList → run (.adHoc (.text query)) (.ofWhole asked) = .ok rows →
    (rows.length : Int) ≤ rowCap asked allowed
  own : ∀ {query checked asked n rows}, Sql.checkText query = .ok checked →
    Sql.hasLimit checked.toList = true → Sql.EndsInLimit checked.toList n →
    run (.adHoc (.text query)) (.ofWhole asked) = .ok rows → rows.length ≤ n
  series : ∀ {w filters dialect tenant q asked rows}, (∀ n, asked = some n → 0 ≤ n) →
    Report.compile w Backend.columns filters dialect tenant = .ok q → Report.groupingOf w = .days →
    run (.chart q) (.ofWhole asked) = .ok rows → (rows.length : Int) ≤ rowCap asked allowed
  ranking : ∀ {w filters dialect tenant q asked rows},
    Report.compile w Backend.columns filters dialect tenant = .ok q → Report.groupingOf w ≠ .days →
    run (.chart q) (.ofWhole asked) = .ok rows → (rows.length : Int) ≤ q.limit ∧ q.limit ≤ 500

section

variable {w : Widget} {filters : Option WidgetFilters} {dialect : Value} {tenant : Option Scope}
  {q : Report.ChartQuery} {engine : Sql.Engine} {n : Int} {source : String}
  {view : Except Fault (Table → Table)} {t : Option Table} {rows : List Fields}

/-- A chart is computed from some table, a time series for the bound. -/
theorem exists_rows_of_compile
    (hq : Report.compile w Backend.columns filters dialect tenant = .ok q)
    (h : (TableQuery.chart q).runBy engine (.int n) source view t = .ok rows) :
    ∃ seen, rows = q.rows seen (if Report.groupingOf w = .days then n else -1) := by
  obtain ⟨checked, seen, hcheck, hseen⟩ := TableQuery.exists_of_runBy h
  rw [TableQuery.check, Report.checkText_of_compile hq] at hcheck
  cases hcheck
  rw [(Report.check_of_compile hq).2] at hseen
  refine ⟨seen, ?_⟩
  by_cases hdays : Report.groupingOf w = .days <;>
  · simp only [TableQuery.rowsBy, TableQuery.rows?, hdays, ne_eq, not_true_eq_false,
      not_false_eq_true, decide_true, decide_false, if_true, if_false, Bool.false_eq_true] at hseen ⊢
    split at hseen
    · cases hseen
      rfl
    · cases hseen

/-- A time series is cut at the bound, and every other chart at its own limit. -/
theorem length_rows (q : Report.ChartQuery) (t : Table) {n bound : Int}
    (hbound : (if q.isLimited then q.limit else n) = bound) (hpos : 0 ≤ bound) :
    ((q.rows t n).length : Int) ≤ bound := by
  rw [Report.ChartQuery.rows, List.length_map, Report.ChartQuery.answer, hbound]
  exact Table.length_limited hpos _

/-- What kind of chart a widget compiles to, and its limit. -/
theorem isLimited_of_compile
    (hq : Report.compile w Backend.columns filters dialect tenant = .ok q) :
    q.isLimited = decide (Report.groupingOf w ≠ .days) ∧ 1 ≤ q.limit ∧ q.limit ≤ 500 := by
  obtain ⟨d, cs, cs', -, -, -, -, rfl⟩ := Report.compile_parts hq
  refine ⟨?_, Report.rowLimit_mem w.limit⟩
  rw [Bool.eq_iff_iff]
  simp [Report.ChartQuery.isLimited]

end

/-- A runner whose queries are bounded puts out no more rows than that. -/
theorem isCapped_of_runBy {engine : Sql.Engine} (h : engine.KeepsLimits) {allowed : Int}
    (hallowed : 0 ≤ allowed) {source : String} {view : Except Fault (Table → Table)}
    {t : Option Table} {run : TableQuery → Value → Except Failure (List Fields)}
    (hrun : ∀ q asked, run q (.ofWhole asked) =
      q.runBy engine (.int (rowCap asked allowed)) source view t) : IsCapped allowed run := by
  constructor
  · intro query checked asked rows hasked hcheck hlimit hopen hrows
    rw [hrun] at hrows
    obtain ⟨checked', seen, hcheck', hseen⟩ := TableQuery.exists_of_runBy hrows
    rw [TableQuery.check, Sql.checkValue_text, hcheck] at hcheck'
    cases hcheck'
    obtain ⟨n, hn⟩ := Int.eq_ofNat_of_zero_le (rowCap_nonneg hasked hallowed)
    rw [hlimit, hn] at hseen
    rw [hn]
    exact Int.ofNat_le.2 (h.length_le hlimit hopen hseen)
  · intro query checked asked n rows hcheck hlimit hends hrows
    rw [hrun] at hrows
    obtain ⟨checked', seen, hcheck', hseen⟩ := TableQuery.exists_of_runBy hrows
    rw [TableQuery.check, Sql.checkValue_text, hcheck] at hcheck'
    cases hcheck'
    rw [hlimit] at hseen
    exact h.limit hends hseen
  · intro w filters dialect tenant q asked rows hasked hq hdays hrows
    rw [hrun] at hrows
    obtain ⟨seen, rfl⟩ := exists_rows_of_compile hq hrows
    rw [if_pos hdays]
    refine length_rows q seen ?_ (rowCap_nonneg hasked hallowed)
    simp [(isLimited_of_compile hq).1, hdays]
  · intro w filters dialect tenant q asked rows hq hdays hrows
    rw [hrun] at hrows
    obtain ⟨seen, rfl⟩ := exists_rows_of_compile hq hrows
    obtain ⟨hlimited, hpos, hle⟩ := isLimited_of_compile hq
    refine ⟨length_rows q seen ?_ (by omega), hle⟩
    simp [hlimited, hdays]

/-- The rows that a store or a server puts out are capped if its database keeps limits, as do the
statements that are read off their tokens. -/
theorem isCapped_of_keepsLimits {engine : Sql.Engine} (h : engine.KeepsLimits) {allowed : Int}
    (hallowed : 1 ≤ allowed) :
    (∀ asked, rowCap asked allowed ≤ allowed) ∧
    (∀ c : Connection, c.store.maxRows = .int allowed → IsCapped allowed (c.runBy engine) ∧
      IsCapped allowed fun q limit ↦ (c.run q limit).1) ∧
    ∀ (s : Server) (scope : Scope), s.maxRows = .int allowed →
      IsCapped allowed (s.runBy engine scope) ∧ IsCapped allowed (s.run scope) := by
  have hpos : 0 ≤ allowed := by omega
  have hconnection {engine : Sql.Engine} (h : engine.KeepsLimits) (c : Connection)
      (hc : c.store.maxRows = .int allowed) : IsCapped allowed (c.runBy engine) :=
    isCapped_of_runBy h hpos (c.runBy_eq hc)
  have hserver {engine : Sql.Engine} (h : engine.KeepsLimits) (s : Server) (scope : Scope)
      (hs : s.maxRows = .int allowed) : IsCapped allowed (s.runBy engine scope) :=
    isCapped_of_runBy h hpos (s.runBy_eq hs scope)
  refine ⟨fun asked ↦ rowCap_le asked allowed, fun c hc ↦ ⟨hconnection h c hc, ?_⟩,
    fun s scope hs ↦ ⟨hserver h s scope hs, ?_⟩⟩
  · simp only [Connection.fst_run]
    exact hconnection Sql.keepsLimits_answer? c hc
  · rw [Server.run_eq]
    exact hserver Sql.keepsLimits_answer? s scope hs

/-- A store that is allowed one row for each query, with two views and a click. -/
def oneAtATime : Connection :=
  ((⟨{ site := 1, maxRows := .int 1 }, none⟩ : Connection).insertAll ⟨0⟩
    [.plain 1 none, .plain 1 none, { EventRecord.plain 1 none with event := "click" }]).2

theorem isCapped_oneAtATime : Sql.Engine.KeepsLimits Sql.answer? ∧ (1 : Int) ≤ 1 ∧
    oneAtATime.store.maxRows = .int 1 ∧
    IsCapped 1 (fun q limit ↦ (oneAtATime.run q limit).1) := by
  have hmax : oneAtATime.store.maxRows = .int 1 := rfl
  refine ⟨Sql.keepsLimits_answer?, le_rfl, hmax, ?_⟩
  exact ((isCapped_of_keepsLimits Sql.keepsLimits_answer? le_rfl).2.1 oneAtATime hmax).2

/-- The chart of all event names. -/
def namesQuery : Report.ChartQuery := ⟨.sqlite, .values "event", .events, [], 25⟩

/-- The chart of the names has a limit of its own, under which it has two rows. -/
theorem length_namesQuery_oneAtATime : oneAtATime.store.maxRows = .int 1 ∧
    Report.compile { xField := "event" } Backend.columns none (.text "sqlite") none =
        .ok namesQuery ∧
      ∃ rows, (oneAtATime.run (.chart namesQuery) .null).1 = .ok rows ∧ rows.length = 2 := by
  have hq : Report.compile { xField := "event" } Backend.columns none (.text "sqlite") none =
      .ok namesQuery := rfl
  have hdays : Report.groupingOf { xField := "event" } ≠ .days := by decide
  have hbound : rowBound .null oneAtATime.store.maxRows = .ok (.int 1) := rfl
  have hrun := Report.run_of_compile hq (c := oneAtATime) (fun _ ↦ rfl) (by decide)
    Report.noFilters_hasNoNull hbound (n := 1) fun h ↦ absurd h hdays
  have hgroups : (namesQuery.groups oneAtATime.content).length = 2 := by decide
  refine ⟨rfl, hq, _, hrun, ?_⟩
  rw [if_neg hdays, Report.ChartQuery.rows, List.length_map]
  change (Table.limited 25 (List.mergeSort _ _)).length = 2
  rw [Table.limited, if_neg (by decide), List.length_take, List.length_mergeSort, hgroups]
  rfl

end Footfall
