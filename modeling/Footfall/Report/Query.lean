import Footfall.Time.Date

/-!
Aggregate queries that charts are drawn from, and their texts in two dialects of SQL. Names stand in
double quotes, values in single ones with each inner quote doubled.
-/

namespace Footfall.Report

inductive Dialect
  | sqlite
  | postgresql
  deriving DecidableEq, Repr, Inhabited

def Dialect.ofName? (name : String) : Option Dialect :=
  if name = "sqlite" then some .sqlite
  else if name = "postgresql" ∨ name = "postgres" then some .postgresql
  else none

def Dialect.name : Dialect → String
  | .sqlite => "sqlite"
  | .postgresql => "postgresql"

def identifier (name : String) : String := "\"" ++ name ++ "\""

def doubled : List Char → List Char
  | [] => []
  | c :: rest => if c = '\'' then '\'' :: '\'' :: doubled rest else c :: doubled rest

def literal (s : String) : String := String.ofList ('\'' :: doubled s.toList ++ ['\''])

/-- What is computed of the events of a group. -/
inductive Metric
  | events
  | sessions
  | sum (field : String)
  | average (field : String)
  deriving DecidableEq, Repr

/-- A condition on the events that are counted. -/
inductive Condition
  | number (field : String) (n : Int)
  | since (day : Date)
  | before (day : Date)
  | text (field : String) (value : String)
  deriving DecidableEq, Repr

/-- How events are grouped: by two fields, by the day of their creation, or by one field. -/
inductive Grouping
  | flow (source target : String)
  | days
  | values (field : String)
  deriving DecidableEq, Repr

structure ChartQuery where
  dialect : Dialect
  grouping : Grouping
  metric : Metric
  conditions : List Condition
  limit : Int
  deriving DecidableEq, Repr

def asText (field : String) : String := "CAST(" ++ identifier field ++ " AS TEXT)"

/-- The number that a field holds; what is no number counts as zero. -/
def asNumber (d : Dialect) (field : String) : String :=
  match d with
  | .sqlite => "COALESCE(CAST(" ++ identifier field ++ " AS REAL), 0)"
  | .postgresql =>
    "CASE WHEN " ++ asText field ++ " ~ '^-?[0-9]+(\\.[0-9]+)?$' THEN CAST(" ++ asText field ++
      " AS DOUBLE PRECISION) ELSE 0 END"

/-- The column of the time of creation, by whose days a time series groups. -/
def timeField : String := "created_at"

def dayOf (d : Dialect) : String :=
  match d with
  | .sqlite => "strftime('%Y-%m-%d', " ++ identifier timeField ++ ")"
  | .postgresql => "to_char(" ++ identifier timeField ++ ", 'YYYY-MM-DD')"

def Metric.sql (d : Dialect) : Metric → String
  | .events => "COUNT(*)"
  | .sessions => "COUNT(DISTINCT " ++ identifier "rid" ++ ")"
  | .sum field => "SUM(" ++ asNumber d field ++ ")"
  | .average field => "AVG(" ++ asNumber d field ++ ")"

def midnightText (day : Date) : String := day.text ++ " 00:00:00"

def Condition.sql : Condition → String
  | .number field n => identifier field ++ " = " ++ toString n
  | .since day => identifier timeField ++ " >= " ++ literal (midnightText day)
  | .before day => identifier timeField ++ " < " ++ literal (midnightText day)
  | .text field value => asText field ++ " = " ++ literal value

/-- The label of a field; an event without a value has the label of the unknown. -/
def labelSql (field : String) : String := "COALESCE(" ++ asText field ++ ", 'Unknown')"

def whereSql (conditions : List Condition) : List String :=
  if conditions.isEmpty then []
  else ["WHERE " ++ " AND ".intercalate (conditions.map Condition.sql)]

def ChartQuery.text (q : ChartQuery) : String :=
  let metric := q.metric.sql q.dialect
  let rest := "FROM site_events" :: whereSql q.conditions
  let limit := "LIMIT " ++ toString q.limit
  " ".intercalate <|
    match q.grouping with
    | .flow source target =>
      ["SELECT " ++ labelSql source ++ " AS source,", labelSql target ++ " AS target,",
       metric ++ " AS value"] ++ rest ++ ["GROUP BY 1, 2", "ORDER BY value DESC", limit]
    | .days =>
      ["SELECT " ++ dayOf q.dialect ++ " AS x,", metric ++ " AS y"] ++ rest ++
        ["GROUP BY 1", "ORDER BY 1 ASC"]
    | .values field =>
      ["SELECT " ++ labelSql field ++ " AS x,", metric ++ " AS y"] ++ rest ++
        ["GROUP BY 1", "ORDER BY y DESC", limit]

end Footfall.Report
