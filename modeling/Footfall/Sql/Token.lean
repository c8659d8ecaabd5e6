import Footfall.Sql.Guard

/-!
The lexical rules of the embedded stores: literals in single quotes, names bare or in one of three
kinds of brackets, numbers, and marks of one character. Blanks and comments separate tokens. What
the guard finds in a text is compared with the tokens of that text.
-/

namespace Footfall.Sql

inductive Token
  | literal (cs : List Char)
  | word (cs : List Char)
  | quoted (cs : List Char)
  | number (cs : List Char)
  | mark (c : Char)
  | unfinished
  deriving DecidableEq, Repr

namespace Token

def isSeparator (c : Char) : Bool :=
  c == ' ' || c == '\t' || c == '\n' || c == '\r' || c.toNat == 12

/-- A letter, digit, low line or dollar sign, or any character outside ASCII. -/
def isNameRest (c : Char) : Bool :=
  c.isAlphanum || c == '_' || c == '$' || decide (128 ≤ c.toNat)

def isNameStart (c : Char) : Bool := c.isAlpha || c == '_' || decide (128 ≤ c.toNat)

def isNumberRest (c : Char) : Bool := isNameRest c || c == '.'

/-- The content up to a closing quote, a doubled quote being one of the content, and the rest. -/
def closeQuote (q : Char) : List Char → Option (List Char × List Char)
  | [] => none
  | [c] => if c = q then some ([], []) else none
  | c :: c' :: rest =>
    if c = q then
      if c' = q then (closeQuote q rest).map fun p ↦ (q :: p.1, p.2) else some ([], c' :: rest)
    else (closeQuote q (c' :: rest)).map fun p ↦ (c :: p.1, p.2)

theorem closeQuote_length {q : Char} {cs : List Char} {p : List Char × List Char}
    (h : closeQuote q cs = some p) : p.2.length < cs.length := by
  induction cs using closeQuote.induct q generalizing p with
  | case1 => simp [closeQuote] at h
  | case2 => simp [closeQuote] at h; subst h; simp
  | case3 c hc => simp [closeQuote, hc] at h
  | case4 rest ih =>
    simp only [closeQuote, if_true, Option.map_eq_some_iff] at h
    obtain ⟨r, hr, rfl⟩ := h
    have := ih hr
    simp only [List.length_cons]
    omega
  | case5 c' rest hc =>
    simp [closeQuote, hc] at h
    subst h
    simp
  | case6 c c' rest hc ih =>
    simp only [closeQuote, hc, if_false, Option.map_eq_some_iff] at h
    obtain ⟨r, hr, rfl⟩ := h
    have := ih hr
    simp only [List.length_cons] at this ⊢
    omega

/-- What follows the end of a comment in slashes and stars; without an end nothing follows. -/
def afterComment : List Char → List Char
  | '*' :: '/' :: rest => rest
  | _ :: rest => afterComment rest
  | [] => []

theorem afterComment_length (cs : List Char) : (afterComment cs).length ≤ cs.length := by
  fun_induction afterComment cs with
  | case1 rest => simp only [List.length_cons]; omega
  | case2 c rest _ ih => simp only [List.length_cons]; omega
  | case3 => simp

/-- The token at the front, or none where a blank or a comment stands, and the rest. -/
def next (c : Char) (cs : List Char) : Option Token × List Char :=
  if isSeparator c then (none, cs)
  else if c = '-' ∧ cs.head? = some '-' then (none, cs.dropWhile (· ≠ '\n'))
  else if c = '/' ∧ cs.head? = some '*' ∧ 1 < cs.length then (none, afterComment (cs.drop 1))
  else if c = '\'' then
    match closeQuote c cs with
    | some (content, rest) => (some (.literal content), rest)
    | none => (some .unfinished, [])
  else if c = '"' ∨ c = '\x60' then
    match closeQuote c cs with
    | some (content, rest) => (some (.quoted content), rest)
    | none => (some .unfinished, [])
  else if c = '[' then
    match cs.dropWhile (· ≠ ']') with
    | _ :: rest => (some (.quoted (cs.takeWhile (· ≠ ']'))), rest)
    | [] => (some .unfinished, [])
  else if isNameStart c then
    (some (.word (c :: cs.takeWhile isNameRest)), cs.dropWhile isNameRest)
  else if c.isDigit then
    (some (.number (c :: cs.takeWhile isNumberRest)), cs.dropWhile isNumberRest)
  else (some (.mark c), cs)

theorem length_dropWhile_le {α : Type} (p : α → Bool) (xs : List α) :
    (xs.dropWhile p).length ≤ xs.length :=
  (List.dropWhile_sublist p).length_le

theorem next_length (c : Char) (cs : List Char) : (next c cs).2.length ≤ cs.length := by
  unfold next
  split
  · exact Nat.le_refl _
  split
  · exact length_dropWhile_le ..
  split
  · have := afterComment_length (cs.drop 1)
    simp only [List.length_drop] at this
    dsimp only
    omega
  split
  · split
    · rename_i h
      exact Nat.le_of_lt (closeQuote_length h)
    · simp
  split
  · split
    · rename_i h
      exact Nat.le_of_lt (closeQuote_length h)
    · simp
  split
  · split
    · rename_i h
      have := length_dropWhile_le (fun c : Char ↦ decide (c ≠ ']')) cs
      simp only [h, List.length_cons] at this
      dsimp only
      omega
    · simp
  split
  · exact length_dropWhile_le ..
  split
  · exact length_dropWhile_le ..
  · exact Nat.le_refl _

def scan : List Char → List Token
  | [] => []
  | c :: cs => (next c cs).1.toList ++ scan (next c cs).2
termination_by cs => cs.length
decreasing_by
  have := next_length c cs
  simp only [List.length_cons]
  omega

/-- Whether a token is a bare word, letters of ASCII in either case. -/
def isWord (w : String) : Token → Bool
  | .word cs => cs.map Char.toLower == w.toList
  | _ => false

def name? : Token → Option (List Char)
  | .word cs | .quoted cs => some cs
  | _ => none

end Token

end Footfall.Sql
