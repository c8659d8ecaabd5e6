import Footfall.Report.Query
import Footfall.Sql.Guard
import Mathlib.Data.List.Basic

/-!
Literals as the guard finds them. A text is read from left to right into single characters and the
contents of literals; a phrase is a text that is read in the same way wherever it stands.
-/

namespace Footfall.Sql

/-- A part of a text: a character outside all literals, or the content of a literal. -/
inductive Piece
  | char (c : Char)
  | literal (content : List Char)
  deriving DecidableEq, Repr

def Piece.blanked : Piece → List Char
  | .char c => [c]
  | .literal _ => ['\'', '\'']

/-- The parts of a text. A quote that opens no literal is a character. -/
def pieces : List Char → List Piece
  | [] => []
  | c :: rest =>
    if c = '\'' then
      match _h : afterLiteral rest with
      | some after => .literal (rest.take (rest.length - after.length - 1)) :: pieces after
      | none => .char c :: pieces rest
    else .char c :: pieces rest
termination_by cs => cs.length
decreasing_by
  · have := afterLiteral_length (by assumption)
    simp only [List.length_cons]
    omega
  · simp
  · simp

@[simp] theorem pieces_nil : pieces [] = [] := by rw [pieces]

@[simp] theorem blanked_nil : blanked [] = [] := by rw [blanked]

theorem pieces_cons {c : Char} (h : c ≠ '\'') (cs : List Char) :
    pieces (c :: cs) = .char c :: pieces cs := by
  rw [pieces, if_neg h]

theorem blanked_cons {c : Char} (h : c ≠ '\'') (cs : List Char) :
    blanked (c :: cs) = c :: blanked cs := by
  rw [blanked, if_neg h]

theorem pieces_quote {cs after : List Char} (h : afterLiteral cs = some after) :
    pieces ('\'' :: cs) = .literal (cs.take (cs.length - after.length - 1)) :: pieces after := by
  rw [pieces, if_pos rfl]
  split
  · rename_i h'
    cases h.symm.trans h'
    rfl
  · rename_i h'
    cases h.symm.trans h'

theorem blanked_quote {cs after : List Char} (h : afterLiteral cs = some after) :
    blanked ('\'' :: cs) = '\'' :: '\'' :: blanked after := by
  rw [blanked, if_pos rfl]
  split
  · rename_i h'
    cases h.symm.trans h'
    rfl
  · rename_i h'
    cases h.symm.trans h'

theorem blanked_open {cs : List Char} (h : afterLiteral cs = none) :
    blanked ('\'' :: cs) = '\'' :: blanked cs := by
  rw [blanked, if_pos rfl]
  split
  · rename_i h'
    cases h.symm.trans h'
  · rfl

theorem blanked_eq (cs : List Char) : blanked cs = (pieces cs).flatMap Piece.blanked := by
  fun_induction pieces cs with
  | case1 => simp
  | case2 rest after h ih => simp [blanked_quote h, ih, Piece.blanked]
  | case3 rest h ih => simp [blanked_open h, ih, Piece.blanked]
  | case4 c rest h ih => simp [blanked_cons h, ih, Piece.blanked]

/-- The literals of a text that has been read up to some characters after the literal before, each
with the characters between it and the literal before. -/
def literalsAfter (before : List Char) : List Piece → List (List Char × List Char)
  | [] => []
  | .char c :: rest => literalsAfter (before ++ [c]) rest
  | .literal v :: rest => (before, v) :: literalsAfter [] rest

/-- Whether a text ends in the sign of an equation. -/
def endsEqual (before : List Char) : Bool := [' ', '=', ' '].isSuffixOf before

theorem endsEqual_append (before : List Char) {x : List Char} (hx : 3 ≤ x.length) :
    endsEqual (before ++ x) = endsEqual x := by
  rw [endsEqual, endsEqual, Bool.eq_iff_iff, List.isSuffixOf_iff_suffix, List.isSuffixOf_iff_suffix]
  exact ⟨fun h ↦ List.suffix_of_suffix_length_le h (List.suffix_append ..) hx,
    fun h ↦ h.trans (List.suffix_append ..)⟩

/-- The contents of those literals that something is said to equal. -/
def equalled (before : List Char) (ps : List Piece) : List (List Char) :=
  ((literalsAfter before ps).filter (endsEqual ·.1)).map (·.2)

def equalityLiterals (cs : List Char) : List (List Char) := equalled [] (pieces cs)

/-- A content with each doubled quote made one. -/
def halved : List Char → List Char
  | '\'' :: '\'' :: rest => '\'' :: halved rest
  | c :: rest => c :: halved rest
  | [] => []

open Report (doubled)

@[simp] theorem halved_doubled (v : List Char) : halved (doubled v) = v := by
  induction v with
  | nil => rfl
  | cons c v ih =>
    by_cases h : c = '\''
    · simp [doubled, h, halved, ih]
    · rw [doubled, if_neg h, halved, ih]
      simp [h]

/-- A literal ends where it was made to end, if no quote follows. -/
theorem afterLiteral_doubled (v : List Char) {b : List Char} (hb : b.head? ≠ some '\'') :
    afterLiteral (doubled v ++ '\'' :: b) = some b := by
  induction v with
  | nil =>
    cases b with
    | nil => rfl
    | cons c b =>
      have hc : c ≠ '\'' := by simpa using hb
      simp [doubled, afterLiteral, hc]
  | cons c v ih =>
    by_cases h : c = '\''
    · simp [doubled, h, afterLiteral, ih]
    · simp [doubled, h, afterLiteral, ih]

theorem pieces_chars {a : List Char} (ha : '\'' ∉ a) (b : List Char) :
    pieces (a ++ b) = a.map .char ++ pieces b := by
  induction a with
  | nil => rfl
  | cons c a ih =>
    rw [List.mem_cons, not_or] at ha
    rw [List.cons_append, pieces_cons (Ne.symm ha.1), ih ha.2, List.map_cons, List.cons_append]

theorem blanked_chars {a : List Char} (ha : '\'' ∉ a) (b : List Char) :
    blanked (a ++ b) = a ++ blanked b := by
  rw [blanked_eq, pieces_chars ha, List.flatMap_append, ← blanked_eq, List.flatMap_map]
  simp [Piece.blanked]

theorem head?_blanked (cs : List Char) : (blanked cs).head? = cs.head? := by
  cases cs with
  | nil => simp
  | cons c cs =>
    by_cases hc : c = '\''
    · subst hc
      cases h : afterLiteral cs with
      | none => simp [blanked_open h]
      | some after => simp [blanked_quote h]
    · simp [blanked_cons hc]

theorem pieces_literal (v : List Char) {b : List Char} (hb : b.head? ≠ some '\'') :
    pieces ('\'' :: doubled v ++ '\'' :: b) = .literal (doubled v) :: pieces b := by
  have hlength : (doubled v ++ '\'' :: b).length - b.length - 1 = (doubled v).length := by
    simp only [List.length_append, List.length_cons]
    omega
  rw [List.cons_append, pieces_quote (afterLiteral_doubled v hb), hlength, List.take_left]

theorem literalsAfter_chars (before a : List Char) (ps : List Piece) :
    literalsAfter before (a.map .char ++ ps) = literalsAfter (before ++ a) ps := by
  induction a generalizing before with
  | nil => simp
  | cons c a ih => simp [literalsAfter, ih]

/-- A text that is read in the same way wherever it stands, and so is what follows it. What follows
must not begin with a quote, which might belong to a literal at the end of the text. -/
structure IsPhrase (a : List Char) : Prop where
  opens : a.head? ≠ some '\''
  pieces_append : ∀ b, b.head? ≠ some '\'' → pieces (a ++ b) = pieces a ++ pieces b
  equalled_append : ∀ before, ∃ before', ∀ ps,
    equalled before (pieces a ++ ps) = equalityLiterals a ++ equalled before' ps

namespace IsPhrase

variable {a b : List Char}

theorem blanked_append (ha : IsPhrase a) (hb : b.head? ≠ some '\'') :
    blanked (a ++ b) = blanked a ++ blanked b := by
  rw [blanked_eq, ha.pieces_append b hb, List.flatMap_append, ← blanked_eq, ← blanked_eq]

theorem equalityLiterals_append (ha : IsPhrase a) (hb : IsPhrase b) :
    equalityLiterals (a ++ b) = equalityLiterals a ++ equalityLiterals b := by
  obtain ⟨before, hbefore⟩ := ha.equalled_append []
  obtain ⟨before', hbefore'⟩ := hb.equalled_append before
  have hend := hbefore' []
  simp only [List.append_nil, equalled, literalsAfter, List.filter_nil, List.map_nil] at hend
  rw [equalityLiterals, ha.pieces_append b hb.opens, hbefore]
  exact congrArg _ hend

theorem nil : IsPhrase [] :=
  ⟨by simp, by simp, fun before ↦ ⟨before, by simp [equalityLiterals, equalled, literalsAfter]⟩⟩

theorem head?_append (ha : a.head? ≠ some '\'') (hb : b.head? ≠ some '\'') :
    (a ++ b).head? ≠ some '\'' := by
  cases a with
  | nil => exact hb
  | cons c a => simpa using ha

theorem append (ha : IsPhrase a) (hb : IsPhrase b) : IsPhrase (a ++ b) := by
  refine ⟨head?_append ha.opens hb.opens, fun c hc ↦ ?_, fun before ↦ ?_⟩
  · rw [List.append_assoc, ha.pieces_append _ (head?_append hb.opens hc), hb.pieces_append c hc,
      ha.pieces_append b hb.opens, List.append_assoc]
  · obtain ⟨before', hbefore'⟩ := ha.equalled_append before
    obtain ⟨before'', hbefore''⟩ := hb.equalled_append before'
    refine ⟨before'', fun ps ↦ ?_⟩
    rw [ha.pieces_append b hb.opens, List.append_assoc, hbefore', hbefore'',
      ha.equalityLiterals_append hb, List.append_assoc]

/-- A text without quotes. -/
theorem of_chars (ha : '\'' ∉ a) : IsPhrase a ∧ blanked a = a ∧ equalityLiterals a = [] := by
  have hpieces : pieces a = a.map .char := by simpa using pieces_chars ha []
  have hnone : equalityLiterals a = [] := by
    have := literalsAfter_chars [] a []
    rw [List.append_nil] at this
    simp [equalityLiterals, equalled, hpieces, this, literalsAfter]
  refine ⟨⟨?_, fun b _ ↦ ?_, fun before ↦ ⟨before ++ a, fun ps ↦ ?_⟩⟩, ?_, hnone⟩
  · exact fun h ↦ ha (List.mem_of_mem_head? h)
  · rw [hpieces, pieces_chars ha]
  · rw [hnone, hpieces, equalled, literalsAfter_chars, List.nil_append, equalled]
  · rw [blanked_eq, hpieces, List.flatMap_map]
    simp [Piece.blanked]

/-- A literal after a text without quotes that is long enough to tell whether an equation is
stated. -/
theorem of_literal {x : List Char} (hx : '\'' ∉ x) (hlen : 3 ≤ x.length) (v : List Char) :
    IsPhrase (x ++ ('\'' :: doubled v ++ ['\''])) ∧
      blanked (x ++ ('\'' :: doubled v ++ ['\''])) = x ++ ['\'', '\''] ∧
      equalityLiterals (x ++ ('\'' :: doubled v ++ ['\''])) =
        if endsEqual x then [doubled v] else [] := by
  have hpieces : pieces (x ++ ('\'' :: doubled v ++ ['\''])) =
      x.map .char ++ [.literal (doubled v)] := by
    rw [pieces_chars hx, pieces_literal v (by simp), pieces_nil]
  have hequalled (before : List Char) (ps : List Piece) :
      equalled before (x.map .char ++ ([.literal (doubled v)] ++ ps)) =
        (if endsEqual x then [doubled v] else []) ++ equalled [] ps := by
    rw [equalled, literalsAfter_chars]
    cases hk : endsEqual x <;> simp [literalsAfter, endsEqual_append before hlen, hk, equalled]
  have hvalues : equalityLiterals (x ++ ('\'' :: doubled v ++ ['\''])) =
      if endsEqual x then [doubled v] else [] := by
    rw [equalityLiterals, hpieces]
    simpa [equalled, literalsAfter] using hequalled [] []
  refine ⟨⟨?_, fun b hb ↦ ?_, fun before ↦ ⟨[], fun ps ↦ ?_⟩⟩, ?_, hvalues⟩
  · cases x with
    | nil => exact absurd hlen (by simp)
    | cons c x => simpa using fun h : c = '\'' ↦ hx (by simp [h])
  · have happ : x ++ ('\'' :: doubled v ++ ['\'']) ++ b = x ++ ('\'' :: doubled v ++ '\'' :: b) := by
      simp
    rw [happ, pieces_chars hx, pieces_literal v hb, hpieces]
    simp
  · rw [hvalues, hpieces, List.append_assoc]
    exact hequalled before ps
  · rw [blanked_eq, hpieces, List.flatMap_append, List.flatMap_map]
    simp [Piece.blanked]

/-- Phrases put together with a separator between them. -/
theorem intercalate {sep : List Char} (hsep : '\'' ∉ sep) {parts : List (List Char)}
    (h : ∀ a ∈ parts, IsPhrase a) :
    IsPhrase (sep.intercalate parts) ∧
      blanked (sep.intercalate parts) = sep.intercalate (parts.map blanked) ∧
      equalityLiterals (sep.intercalate parts) = parts.flatMap equalityLiterals := by
  obtain ⟨hs, hsb, hse⟩ := of_chars hsep
  induction parts with
  | nil => exact ⟨by simpa [List.intercalate] using nil, by simp [List.intercalate],
      by simp [List.intercalate, equalityLiterals, equalled, literalsAfter]⟩
  | cons a rest ih =>
    have ha := h a (by simp)
    obtain ⟨hr, hrb, hre⟩ := ih fun b hb ↦ h b (by simp [hb])
    cases rest with
    | nil => exact ⟨by simpa [List.intercalate] using ha, by simp [List.intercalate],
        by simp [List.intercalate]⟩
    | cons b rest =>
      have heq (a b : List Char) (rest : List (List Char)) :
          sep.intercalate (a :: b :: rest) = a ++ (sep ++ sep.intercalate (b :: rest)) := by
        simp [List.intercalate, List.intersperse]
      rw [List.map_cons, List.map_cons, heq, heq, ← List.map_cons, ← hrb]
      refine ⟨ha.append (hs.append hr), ?_, ?_⟩
      · rw [ha.blanked_append (hs.append hr).opens, hs.blanked_append hr.opens, hsb]
      · rw [ha.equalityLiterals_append (hs.append hr), hs.equalityLiterals_append hr, hse, hre]
        simp

end IsPhrase

end Footfall.Sql
