import Footfall.Proofs.Admission

/-!
The text of a query in pieces: words of its own, names in double quotes, values in single ones, and
whole numbers. The words and most of the values are the same in all queries, so that what is to hold
of every piece has to be shown of these, of the names and of the values of the conditions.
-/

namespace Footfall.Report

inductive Piece
  | word (s : String)
  | name (field : String)
  | value (s : String)
  | whole (n : Int)

namespace Piece

def text : Piece → String
  | .word s => s
  | .name field => identifier field
  | .value s => literal s
  | .whole n => toString n

def name? : Piece → Option String
  | .name field => some field
  | .word _ | .value _ | .whole _ => none

end Piece

/-- The text of pieces. -/
def written (ps : List Piece) : List Char := ps.flatMap (·.text.toList)

/-- The names in pieces. -/
def namesIn (ps : List Piece) : List String := ps.filterMap Piece.name?

section

variable {p : Piece} {ps qs : List Piece}

@[simp] theorem written_nil : written [] = [] := rfl

@[simp] theorem written_cons : written (p :: ps) = p.text.toList ++ written ps := rfl

@[simp] theorem written_append : written (ps ++ qs) = written ps ++ written qs :=
  List.flatMap_append ..

@[simp] theorem namesIn_nil : namesIn [] = [] := rfl

@[simp] theorem namesIn_name {field : String} :
    namesIn (.name field :: ps) = field :: namesIn ps := rfl

@[simp] theorem namesIn_word {s : String} : namesIn (.word s :: ps) = namesIn ps := rfl

@[simp] theorem namesIn_whole {n : Int} : namesIn (.whole n :: ps) = namesIn ps := rfl

@[simp] theorem namesIn_append : namesIn (ps ++ qs) = namesIn ps ++ namesIn qs :=
  List.filterMap_append ..

/-- Parts in a row, with a word between each and the next. -/
def joined (sep : String) (parts : List (List Piece)) : List Piece :=
  [Piece.word sep].intercalate parts

theorem written_joined (sep : String) (parts : List (List Piece)) :
    written (joined sep parts) = sep.toList.intercalate (parts.map written) := by
  induction parts with
  | nil => rfl
  | cons part parts ih =>
    cases parts with
    | nil => simp [joined, List.intercalate]
    | cons part' parts =>
      rw [List.map_cons] at ih ⊢
      rw [List.map_cons, List.intercalate_cons_cons, ← ih, joined, List.intercalate_cons_cons,
        written_append, written_append]
      simp [joined, Piece.text]

theorem namesIn_joined (sep : String) (parts : List (List Piece)) :
    namesIn (joined sep parts) = parts.flatMap namesIn := by
  induction parts with
  | nil => rfl
  | cons part parts ih =>
    cases parts with
    | nil => simp [joined, List.intercalate]
    | cons part' parts =>
      rw [List.flatMap_cons, ← ih, joined, List.intercalate_cons_cons, namesIn_append,
        namesIn_append]
      simp [joined, namesIn, Piece.name?]

theorem forall_mem_joined {P : Piece → Prop} {sep : String} (hsep : P (.word sep))
    {parts : List (List Piece)} (h : ∀ part ∈ parts, ∀ p ∈ part, P p) :
    ∀ p ∈ joined sep parts, P p := by
  induction parts with
  | nil => simp [joined, List.intercalate]
  | cons part parts ih =>
    obtain ⟨hpart, hparts⟩ := List.forall_mem_cons.1 h
    cases parts with
    | nil => simpa [joined, List.intercalate] using hpart
    | cons part' parts =>
      rw [joined, List.intercalate_cons_cons, List.append_assoc]
      simp only [List.forall_mem_append, List.forall_mem_singleton]
      exact ⟨hpart, hsep, ih hparts⟩

end

def textPieces (field : String) : List Piece := [.word "CAST(", .name field, .word " AS TEXT)"]

def labelPieces (field : String) : List Piece :=
  .word "COALESCE(" :: textPieces field ++ [.word ", ", .value "Unknown", .word ")"]

def numberPieces (d : Dialect) (field : String) : List Piece :=
  match d with
  | .sqlite => [.word "COALESCE(CAST(", .name field, .word " AS REAL), 0)"]
  | .postgresql =>
    .word "CASE WHEN " :: textPieces field ++
      [.word " ~ ", .value "^-?[0-9]+(\\.[0-9]+)?$", .word " THEN CAST("] ++ textPieces field ++
        [.word " AS DOUBLE PRECISION) ELSE 0 END"]

def dayPieces (d : Dialect) : List Piece :=
  match d with
  | .sqlite => [.word "strftime(", .value "%Y-%m-%d", .word ", ", .name timeField, .word ")"]
  | .postgresql => [.word "to_char(", .name timeField, .word ", ", .value "YYYY-MM-DD", .word ")"]

def Metric.pieces (d : Dialect) : Metric → List Piece
  | .events => [.word "COUNT(*)"]
  | .sessions => [.word "COUNT(DISTINCT ", .name "rid", .word ")"]
  | .sum field => .word "SUM(" :: numberPieces d field ++ [.word ")"]
  | .average field => .word "AVG(" :: numberPieces d field ++ [.word ")"]

def Condition.pieces : Condition → List Piece
  | .number field n => [.name field, .word " = ", .whole n]
  | .since day => [.name timeField, .word " >= ", .value (midnightText day)]
  | .before day => [.name timeField, .word " < ", .value (midnightText day)]
  | .text field value => textPieces field ++ [.word " = ", .value value]

def whereParts (cs : List Condition) : List (List Piece) :=
  if cs.isEmpty then [] else [.word "WHERE " :: joined " AND " (cs.map Condition.pieces)]

/-- What stands between the blanks of a query. -/
def ChartQuery.parts (q : ChartQuery) : List (List Piece) :=
  let metric := q.metric.pieces q.dialect
  let rest := [.word "FROM site_events"] :: whereParts q.conditions
  let limit := [.word "LIMIT ", .whole q.limit]
  match q.grouping with
  | .flow source target =>
    [.word "SELECT " :: labelPieces source ++ [.word " AS source,"],
      labelPieces target ++ [.word " AS target,"], metric ++ [.word " AS value"]] ++ rest ++
        [[.word "GROUP BY 1, 2"], [.word "ORDER BY value DESC"], limit]
  | .days =>
    [.word "SELECT " :: dayPieces q.dialect ++ [.word " AS x,"], metric ++ [.word " AS y"]] ++
      rest ++ [[.word "GROUP BY 1"], [.word "ORDER BY 1 ASC"]]
  | .values field =>
    [.word "SELECT " :: labelPieces field ++ [.word " AS x,"], metric ++ [.word " AS y"]] ++
      rest ++ [[.word "GROUP BY 1"], [.word "ORDER BY y DESC"], limit]

def ChartQuery.pieces (q : ChartQuery) : List Piece := joined " " q.parts

theorem written_textPieces (field : String) :
    written (textPieces field) = (asText field).toList := by
  simp [textPieces, asText, Piece.text]

theorem written_labelPieces (field : String) :
    written (labelPieces field) = (labelSql field).toList := by
  have hunknown : (literal "Unknown").toList = "'Unknown'".toList := by decide
  simp [labelPieces, labelSql, Piece.text, written_textPieces, hunknown]

theorem written_numberPieces (d : Dialect) (field : String) :
    written (numberPieces d field) = (asNumber d field).toList := by
  have hpattern : (literal "^-?[0-9]+(\\.[0-9]+)?$").toList =
      "'^-?[0-9]+(\\.[0-9]+)?$'".toList := by decide
  cases d <;> simp [numberPieces, asNumber, Piece.text, written_textPieces, hpattern]

theorem written_dayPieces (d : Dialect) : written (dayPieces d) = (dayOf d).toList := by
  cases d <;> decide

theorem Metric.written_pieces (d : Dialect) (m : Metric) :
    written (m.pieces d) = (m.sql d).toList := by
  cases m <;> simp [pieces, Metric.sql, Piece.text, written_numberPieces]

theorem Condition.written_pieces (c : Condition) : written c.pieces = c.sql.toList := by
  cases c <;> simp [pieces, Condition.sql, Piece.text, written_textPieces]

theorem map_written_whereParts (cs : List Condition) :
    (whereParts cs).map written = (whereSql cs).map String.toList := by
  unfold whereParts whereSql
  split
  · rfl
  · simp [written_joined, Piece.text, Function.comp_def, Condition.written_pieces,
      String.toList_intercalate]

/-- The text of a query is that of its pieces. -/
theorem ChartQuery.written_pieces (q : ChartQuery) : written q.pieces = q.text.toList := by
  rw [pieces, written_joined, text, String.toList_intercalate]
  congr 1
  cases hgrouping : q.grouping <;>
    simp [parts, hgrouping, Piece.text, written_labelPieces, written_dayPieces,
      Metric.written_pieces, map_written_whereParts]

def words : List String :=
  ["CAST(", " AS TEXT)", "COALESCE(", ", ", ")", "COALESCE(CAST(", " AS REAL), 0)", "CASE WHEN ",
    " ~ ", " THEN CAST(", " AS DOUBLE PRECISION) ELSE 0 END", "strftime(", "to_char(", "COUNT(*)",
    "COUNT(DISTINCT ", "SUM(", "AVG(", " = ", " >= ", " < ", "WHERE ", " AND ", " ", "SELECT ",
    " AS source,", " AS target,", " AS value", " AS x,", " AS y", "FROM site_events", "GROUP BY 1",
    "GROUP BY 1, 2", "ORDER BY value DESC", "ORDER BY 1 ASC", "ORDER BY y DESC", "LIMIT "]

/-- The values that are the same in all queries: the label of the unknown, and patterns. -/
def patterns : List String :=
  ["Unknown", "^-?[0-9]+(\\.[0-9]+)?$", "%Y-%m-%d", "YYYY-MM-DD"]

/-- A piece of a query over conditions: its words and values are the common ones, or values of the
conditions. -/
def Piece.IsOf (cs : List Condition) : Piece → Prop
  | .word s => s ∈ words
  | .value s => s ∈ patterns ∨ (∃ day, s = midnightText day) ∨ ∃ field, .text field s ∈ cs
  | .name _ | .whole _ => True

section

variable {cs : List Condition}

@[simp] theorem Piece.isOf_word {s : String} : (Piece.word s).IsOf cs ↔ s ∈ words := Iff.rfl

@[simp] theorem Piece.isOf_value {s : String} : (Piece.value s).IsOf cs ↔
    s ∈ patterns ∨ (∃ day, s = midnightText day) ∨ ∃ field, Condition.text field s ∈ cs := Iff.rfl

@[simp] theorem Piece.isOf_name {field : String} : (Piece.name field).IsOf cs := trivial

@[simp] theorem Piece.isOf_whole {n : Int} : (Piece.whole n).IsOf cs := trivial

def AreOf (cs : List Condition) (ps : List Piece) : Prop := ∀ p ∈ ps, p.IsOf cs

@[simp] theorem areOf_nil : AreOf cs [] := by simp [AreOf]

@[simp] theorem areOf_cons {p : Piece} {ps : List Piece} :
    AreOf cs (p :: ps) ↔ p.IsOf cs ∧ AreOf cs ps := List.forall_mem_cons

@[simp] theorem areOf_append {ps qs : List Piece} :
    AreOf cs (ps ++ qs) ↔ AreOf cs ps ∧ AreOf cs qs := List.forall_mem_append

theorem areOf_textPieces (field : String) : AreOf cs (textPieces field) := by
  simp [textPieces, words]

theorem areOf_labelPieces (field : String) : AreOf cs (labelPieces field) := by
  simp [labelPieces, areOf_textPieces, words, patterns]

theorem areOf_numberPieces (d : Dialect) (field : String) : AreOf cs (numberPieces d field) := by
  cases d <;> simp [numberPieces, areOf_textPieces, words, patterns]

theorem areOf_dayPieces (d : Dialect) : AreOf cs (dayPieces d) := by
  cases d <;> simp [dayPieces, words, patterns]

theorem Metric.areOf_pieces (d : Dialect) (m : Metric) : AreOf cs (m.pieces d) := by
  cases m <;> simp [pieces, areOf_numberPieces, words]

theorem Condition.areOf_pieces {c : Condition} (h : c ∈ cs) : AreOf cs c.pieces := by
  cases c with
  | number field n => simp [pieces, words]
  | since day => simp [pieces, words]
  | before day => simp [pieces, words]
  | text field value =>
    have hvalue : (Piece.value value).IsOf cs := .inr (.inr ⟨field, h⟩)
    simp [pieces, areOf_textPieces, words, -Piece.isOf_value, hvalue]

theorem areOf_whereParts : ∀ part ∈ whereParts cs, AreOf cs part := by
  unfold whereParts
  split
  · simp
  · rw [List.forall_mem_singleton, areOf_cons]
    refine ⟨by simp [words], forall_mem_joined (by simp [words]) ?_⟩
    rw [List.forall_mem_map]
    exact fun c hc ↦ Condition.areOf_pieces hc

/-- The pieces of a query are over its conditions. -/
theorem ChartQuery.areOf_pieces (q : ChartQuery) : AreOf q.conditions q.pieces := by
  refine forall_mem_joined (by simp [words]) ?_
  have hwhere : ∀ part ∈ whereParts q.conditions, AreOf q.conditions part := areOf_whereParts
  show ∀ part ∈ q.parts, AreOf q.conditions part
  cases hgrouping : q.grouping <;>
    simpa [parts, hgrouping, or_imp, forall_and, areOf_labelPieces, areOf_dayPieces,
      Metric.areOf_pieces, words] using hwhere

end

/-- The names in the number that a field holds: it is looked at twice where its text is tested
first. -/
def numberNames (d : Dialect) (field : String) : List String :=
  match d with
  | .sqlite => [field]
  | .postgresql => [field, field]

def Metric.names (d : Dialect) : Metric → List String
  | .events => []
  | .sessions => ["rid"]
  | .sum field | .average field => numberNames d field

def Grouping.names : Grouping → List String
  | .flow source target => [source, target]
  | .days => [timeField]
  | .values field => [field]

theorem namesIn_labelPieces (field : String) : namesIn (labelPieces field) = [field] := rfl

theorem namesIn_dayPieces (d : Dialect) : namesIn (dayPieces d) = [timeField] := by
  cases d <;> rfl

theorem Metric.namesIn_pieces (d : Dialect) (m : Metric) : namesIn (m.pieces d) = m.names d := by
  cases m <;> cases d <;> rfl

theorem Condition.namesIn_pieces (c : Condition) : namesIn c.pieces = [c.field] := by
  cases c <;> rfl

theorem flatMap_namesIn_whereParts (cs : List Condition) :
    (whereParts cs).flatMap namesIn = cs.map Condition.field := by
  unfold whereParts
  split
  · rename_i hempty
    simp [List.isEmpty_iff.1 hempty]
  · have hjoined := namesIn_joined " AND " (cs.map Condition.pieces)
    rw [List.flatMap_map] at hjoined
    simp only [Condition.namesIn_pieces] at hjoined
    rw [List.flatMap_singleton, namesIn_word, hjoined, List.map_eq_flatMap]

/-- The names in a query are those of its grouping, of its metric and of its conditions. -/
theorem ChartQuery.namesIn_pieces (q : ChartQuery) : namesIn q.pieces =
    q.grouping.names ++ q.metric.names q.dialect ++ q.conditions.map Condition.field := by
  rw [pieces, namesIn_joined]
  cases hgrouping : q.grouping <;>
    simp [parts, hgrouping, Grouping.names, namesIn_labelPieces, namesIn_dayPieces,
      Metric.namesIn_pieces, flatMap_namesIn_whereParts]

end Footfall.Report
