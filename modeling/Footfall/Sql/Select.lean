import Footfall.Sql.Token
import Footfall.Store.Aggregate

/-!
Ad-hoc queries: `SELECT` of columns or of a count from one table, with a condition, groups, an order
and a limit, and possibly with named queries in front. The meaning of a query is a list of rows over
the rows of the tables that it names.
-/

namespace Footfall.Sql

/-- What a query puts out for each row or group. -/
inductive Output
  | everything
  | column (name : String)
  | count (label : String)
  deriving DecidableEq, Repr

/-- A column or label to sort by, and whether downward. -/
structure SortKey where
  name : String
  down : Bool
  deriving DecidableEq, Repr

structure Select where
  outputs : List Output
  source : String
  condition : Option (String × String)
  groups : List String
  order : List SortKey
  limit : Option Int
  deriving DecidableEq, Repr

/-- A query with the named queries in front of it. -/
structure Statement where
  named : List (String × Select)
  main : Select
  deriving DecidableEq, Repr

abbrev Reader := StateT (List Token) Option

namespace Reader

def next : Reader Token := do
  match ← get with
  | t :: rest => set rest; return t
  | [] => failure

def word (w : String) : Reader Unit := do if !(← next).isWord w then failure

def mark (c : Char) : Reader Unit := do if (← next) != .mark c then failure

def reserved : List String :=
  ["select", "from", "where", "group", "order", "by", "limit", "as", "with", "and", "or", "not",
   "having", "union", "join", "on", "in", "is", "null", "distinct", "case", "when"]

def name : Reader String := do
  let t ← next
  if reserved.any (t.isWord ·) then failure
  match t.name? with
  | some cs => return String.ofList cs
  | none => failure

def whole : Reader Int := do
  match ← next with
  | .number cs => if cs.all Char.isDigit then return Text.natural cs else failure
  | _ => failure

def literal : Reader String := do
  match ← next with
  | .literal cs => return String.ofList cs
  | _ => failure

/-- What a reader reads, if it can; otherwise nothing is taken. -/
def maybe {α : Type} (r : Reader α) : Reader (Option α) := fun ts ↦
  match r ts with
  | some (a, rest) => some (some a, rest)
  | none => some (none, ts)

def more {α : Type} (r : Reader α) : Nat → Reader (List α)
  | 0 => return []
  | n + 1 => do
    match ← maybe (mark ',') with
    | some _ => return (← r) :: (← more r n)
    | none => return []

def items {α : Type} (r : Reader α) : Reader (List α) := do
  return (← r) :: (← more r (← get).length)

def count : Reader Output := do
  let t ← next
  if !t.isWord "count" then failure
  mark '('
  mark '*'
  mark ')'
  let spelled := match t.name? with
    | some cs => String.ofList cs ++ "(*)"
    | none => "COUNT(*)"
  return .count ((← maybe (do word "as"; name)).getD spelled)

def output : Reader Output := do
  match ← maybe (mark '*') with
  | some _ => return .everything
  | none =>
    match ← maybe count with
    | some o => return o
    | none => return .column (← name)

def sortKey : Reader SortKey := do
  let n ← name
  match ← maybe (word "desc") with
  | some _ => return ⟨n, true⟩
  | none =>
    let _ ← maybe (word "asc")
    return ⟨n, false⟩

def condition : Reader (String × String) := do
  word "where"
  let n ← name
  mark '='
  return (n, ← literal)

def limit : Reader Int := do
  word "limit"
  match ← maybe (mark '-') with
  | some _ => return -(← whole)
  | none => whole

def select : Reader Select := do
  word "select"
  let outputs ← items output
  word "from"
  let source ← name
  let condition ← maybe condition
  let groups ← maybe (do word "group"; word "by"; items name)
  let order ← maybe (do word "order"; word "by"; items sortKey)
  return ⟨outputs, source, condition, groups.getD [], order.getD [], ← maybe limit⟩

def named : Reader (String × Select) := do
  let n ← name
  word "as"
  mark '('
  let s ← select
  mark ')'
  return (n, s)

def statement : Reader Statement := do
  let front ← maybe (do word "with"; items named)
  return ⟨front.getD [], ← select⟩

end Reader

def Statement.read? (text : List Char) : Option Statement :=
  match (Reader.statement (Token.scan text) : Option (Statement × List Token)) with
  | some (s, []) => some s
  | _ => none

/-- A table by its columns' names. -/
structure Rowset where
  columns : List String
  rows : List (List Cell)
  deriving DecidableEq, Repr

namespace Rowset

def ofTable (t : Table) : Rowset :=
  ⟨Column.all.map Column.name, t.map fun e ↦ Column.all.map e.cell⟩

def sameName (a b : String) : Bool := a.toList.map Char.toLower == b.toList.map Char.toLower

def place? (r : Rowset) (name : String) : Option Nat := r.columns.findIdx? (sameName name)

def cellAt (row : List Cell) (i : Nat) : Cell := row.getD i .null

/-- Values without content come first, then numbers, then texts. -/
def compareCells : Cell → Cell → Ordering
  | .null, .null => .eq
  | .null, _ => .lt
  | _, .null => .gt
  | .whole a, .whole b => compare a b
  | .whole _, .text _ => .lt
  | .text _, .whole _ => .gt
  | .text a, .text b => compare a b

/-- The order of two rows by places, each upward or downward. -/
def compareRows : List (Nat × Bool) → List Cell → List Cell → Ordering
  | [], _, _ => .eq
  | (i, down) :: keys, a, b =>
    let o := compareCells (cellAt a i) (cellAt b i)
    (if down then o.swap else o).then (compareRows keys a b)

def sorted (r : Rowset) (keys : List (Nat × Bool)) : Rowset :=
  if keys.isEmpty then r
  else ⟨r.columns, r.rows.mergeSort fun a b ↦ (compareRows keys a b).isLE⟩

end Rowset

namespace Select

open Rowset

def selected (s : Select) (r : Rowset) : Option Rowset :=
  match s.condition with
  | none => some r
  | some (name, value) => do
    let i ← r.place? name
    return ⟨r.columns, r.rows.filter fun row ↦ cellAt row i == .text value⟩

def isCount : Output → Bool
  | .count _ => true
  | _ => false

def isGrouped (s : Select) : Bool := !s.groups.isEmpty || s.outputs.any isCount

def outputNames (r : Rowset) : Output → Option (List String)
  | .everything => some r.columns
  | .column name => do
    let i ← r.place? name
    return [r.columns.getD i name]
  | .count label => some [label]

/-- The cells of an output for a group, whose first row stands for it. -/
def outputCells (r : Rowset) (group : List (List Cell)) : Output → List Cell
  | .everything => (group.head?).getD (r.columns.map fun _ ↦ .null)
  | .column name => [cellAt (group.head?.getD []) ((r.place? name).getD 0)]
  | .count _ => [.whole group.length]

/-- The groups of rows with equal cells at the given places, in their order. -/
def groupRows (places : List Nat) (rows : List (List Cell)) : List (List (List Cell)) :=
  let key row := places.map (cellAt row)
  let keys := (distinct (rows.map key)).mergeSort fun a b ↦
    (compareRows ((List.range places.length).map (·, false)) a b).isLE
  keys.map fun k ↦ rows.filter fun row ↦ key row == k

/-- What is put out together: each row by itself, groups of rows, or all rows. -/
def units (s : Select) (r : Rowset) : Option (List (List (List Cell))) := do
  let places ← s.groups.mapM r.place?
  if !s.isGrouped then return r.rows.map ([·])
  else if s.groups.isEmpty then return [r.rows]
  else return groupRows places r.rows

/-- Each unit's output, with the cells of its first row behind it to sort by. -/
def extended (s : Select) (r : Rowset) : Option Rowset := do
  let names ← s.outputs.mapM (outputNames r)
  let units ← s.units r
  return ⟨names.flatten ++ r.columns,
    units.map fun u ↦ s.outputs.flatMap (outputCells r u) ++ outputCells r u .everything⟩

/-- The rows that a query puts out. A limit of more than 64 bits is refused. -/
def run (s : Select) (source : Rowset) : Option Rowset := do
  guard (s.limit.all fitsTable)
  let r ← s.selected source
  let width := ((← s.outputs.mapM (outputNames r)).flatten).length
  let all ← s.extended r
  let keys ← s.order.mapM fun k ↦ (all.place? k.name).map (·, k.down)
  let result := all.sorted keys
  return ⟨result.columns.take width,
    (Table.limited (s.limit.getD (-1)) result.rows).map (·.take width)⟩

end Select

/-- The rows of a name: the last named query of that name, or the events table. -/
def rowsetOf (known : List (String × Rowset)) (name : String) : Option Rowset :=
  (known.find? fun p ↦ Rowset.sameName p.1 name).map (·.2)

/-- The rows that a statement puts out over the events table. -/
def Statement.run (s : Statement) (t : Table) : Option Rowset := do
  let base := [(String.ofList tableName, Rowset.ofTable t)]
  let known ← s.named.foldlM (fun known n ↦ do
    let r ← n.2.run (← rowsetOf known n.2.source)
    return (n.1, r) :: known) base
  s.main.run (← rowsetOf known s.main.source)

def Rowset.toFields (r : Rowset) : List Fields :=
  r.rows.map fun row ↦ r.columns.zip (row.map Cell.toValue)

/-- Whether a text can be handed to a store, which takes no text with a null character. -/
def isRunnable (query : String) : Bool := !query.toList.contains '\x00'

/-- The rows that a query of the embedded dialect puts out; none when it cannot be run. -/
def answer? (query : String) (t : Table) : Option (List Fields) :=
  if isRunnable query then do
    return (← (← Statement.read? query.toList).run t).toFields
  else none

end Footfall.Sql
