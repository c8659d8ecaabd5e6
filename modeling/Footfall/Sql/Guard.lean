import Footfall.Text.Blank
import Footfall.Text.Word

/-!
The guard of ad-hoc queries: a query has to be a single `SELECT` that only reads and that names the
events table plainly. Quoted literals are blanked first, so their content counts for nothing.
Letters are compared without regard to case.
-/

namespace Footfall.Sql

open Text

/-- What follows a quoted literal, whose opening quote has been taken off. A doubled quote belongs
to the literal if it can still be closed. -/
def afterLiteral : List Char → Option (List Char)
  | [] => none
  | '\'' :: '\'' :: rest => (afterLiteral rest).or (some ('\'' :: rest))
  | '\'' :: rest => some rest
  | _ :: rest => afterLiteral rest

theorem afterLiteral_length {cs rest : List Char} (h : afterLiteral cs = some rest) :
    rest.length < cs.length := by
  fun_induction afterLiteral cs generalizing rest with
  | case1 => simp at h
  | case2 r ih =>
    cases hr : afterLiteral r with
    | none => simp [hr] at h; subst h; simp
    | some s =>
      simp [hr] at h
      subst h
      have := ih hr
      simp only [List.length_cons]
      omega
  | case3 r => simp at h; subst h; simp
  | case4 c r _ _ ih =>
    have := ih h
    simp only [List.length_cons]
    omega

/-- The text with the content of every quoted literal taken out. -/
def blanked : List Char → List Char
  | [] => []
  | c :: rest =>
    if c = '\'' then
      match _h : afterLiteral rest with
      | some after => '\'' :: '\'' :: blanked after
      | none => c :: blanked rest
    else c :: blanked rest
termination_by cs => cs.length
decreasing_by
  · have := afterLiteral_length (by assumption)
    simp only [List.length_cons]
    omega
  · simp
  · simp

/-- A letter in lower case. Beside the letters of ASCII this covers the dotted and dotless i, the
long s and the sign of the kelvin. -/
def lowerLetter (c : Char) : Char :=
  if c.toNat < 128 then c.toLower
  else if c = '\u0130' ∨ c = '\u0131' then 'i'
  else if c = '\u017f' then 's'
  else if c = '\u212a' then 'k'
  else c

def afterWord : List Char → List Char → Option (List Char)
  | [], cs => some cs
  | w :: ws, c :: cs => if lowerLetter c = w then afterWord ws cs else none
  | _ :: _, [] => none

def isWordEnd : List Char → Bool
  | c :: _ => !isWord c
  | [] => true

/-- Whether a place is no continuation of a word, given the character before it. -/
def isWordStart : Option Char → Bool
  | some c => !isWord c
  | none => true

def skipBlanks (cs : List Char) : List Char := cs.dropWhile isBlank

/-- Whether a test holds at some place of a text. The test gets the character before the place and
the text from there on. -/
def somewhere (p : Option Char → List Char → Bool) : Option Char → List Char → Bool
  | before, [] => p before []
  | before, c :: cs => p before (c :: cs) || somewhere p (some c) cs

def isWordAt (word : List Char) (before : Option Char) (cs : List Char) : Bool :=
  isWordStart before && (afterWord word cs).any isWordEnd

def hasWord (word : List Char) (cs : List Char) : Bool := somewhere (isWordAt word) none cs

def tableName : List Char := "site_events".toList

def writingWords : List (List Char) :=
  ["insert", "update", "delete", "drop", "alter", "create", "pragma", "attach", "detach",
   "replace", "truncate", "vacuum", "grant"].map String.toList

def afterLeadingWord (word : List Char) (cs : List Char) : Option (List Char) :=
  match afterWord word cs with
  | some (c :: rest) => if isBlank c then some rest else none
  | _ => none

def startsRecursive (cs : List Char) : Bool :=
  match afterLeadingWord "with".toList cs with
  | some rest => (afterWord "recursive".toList (skipBlanks rest)).any isWordEnd
  | none => false

def dropQuote : List Char → List Char
  | '"' :: rest => rest
  | rest => rest

def isQualifiedAt (_ : Option Char) : List Char → Bool
  | '.' :: rest => (afterWord tableName (dropQuote (skipBlanks rest))).any isWordEnd
  | _ => false

/-- What follows a group in parentheses; a text without a group is left as it is. -/
def afterGroup : List Char → Option (List Char)
  | '(' :: rest =>
    match rest.dropWhile (· ≠ ')') with
    | _ :: after => some after
    | [] => none
  | rest => some rest

/-- The table's name followed by `AS` and an opening parenthesis, possibly with a list of columns
between. -/
def isRedefinedAt (before : Option Char) (cs : List Char) : Bool :=
  isWordStart before &&
    match afterWord tableName cs with
    | none => false
    | some rest =>
      match afterGroup (skipBlanks (dropQuote rest)) with
      | none => false
      | some rest =>
        match afterWord "as".toList (skipBlanks rest) with
        | none => false
        | some rest => (skipBlanks rest).head? == some '('

inductive Violation
  | empty
  | severalStatements
  | notSelect
  | writes
  | otherTable
  | recursive
  | qualified
  deriving DecidableEq, Repr

def Violation.message : Violation → String
  | .empty => "Query is required"
  | .severalStatements => "Multiple statements are not allowed"
  | .notSelect => "Only SELECT queries are allowed"
  | .writes => "Only read-only SELECT queries are allowed"
  | .otherTable => "Query must reference site_events"
  | .recursive => "Recursive queries are not allowed"
  | .qualified => "site_events must be referenced by its plain name"

def violationOf (text : List Char) : Option Violation :=
  if ';' ∈ text then some .severalStatements
  else if (afterLeadingWord "select".toList text).isNone &&
      (afterLeadingWord "with".toList text).isNone then some .notSelect
  else if writingWords.any (hasWord · text) then some .writes
  else if !hasWord tableName text then some .otherTable
  else if startsRecursive text then some .recursive
  else if somewhere isQualifiedAt none text || somewhere isRedefinedAt none text then
    some .qualified
  else none

def violation (query : List Char) : Option Violation :=
  if query.isEmpty then some .empty else violationOf (blanked query)

/-- The query without blanks at its ends and without one final semicolon. -/
def normalize (query : List Char) : List Char :=
  let cs := trimBy isBlank query
  match cs.reverse with
  | ';' :: rest => rest.reverse
  | _ => cs

def check (query : List Char) : Except Violation (List Char) :=
  let q := normalize query
  match violation q with
  | some v => .error v
  | none => .ok q

def isLimitAt (before : Option Char) (cs : List Char) : Bool :=
  isWordStart before &&
    match afterLeadingWord "limit".toList cs with
    | some rest => (skipBlanks rest).head?.any Char.isDigit
    | none => false

def hasLimit (query : List Char) : Bool := somewhere isLimitAt none (blanked query)

/-- The query with a limit appended, unless it has its own. -/
def limitRows (query : String) (rows : Int) : String :=
  if hasLimit query.toList then query else query ++ " LIMIT " ++ toString rows

/-- The expression that shadows the events table with the rows of one site and team. -/
def scopeExpression (source : String) (site : Int) (team : Option Int) : String :=
  "site_events AS (SELECT * FROM " ++ source ++ " WHERE site_id = " ++ toString site ++
    (match team with | some t => " AND team_id = " ++ toString t | none => "") ++ ")"

/-- A query whose events table is shadowed by a scope expression. An embedded store names the table
inside the expression by its schema, since a plain name would there mean the expression itself. -/
def scope (query : String) (embedded : Bool) (site : Int) (team : Option Int) : String :=
  let source := if embedded then "main.site_events" else "site_events"
  let head := "WITH " ++ scopeExpression source site team
  match afterLeadingWord "with".toList query.toList with
  | some rest => head ++ ", " ++ String.ofList rest
  | none => head ++ " " ++ query

end Footfall.Sql
