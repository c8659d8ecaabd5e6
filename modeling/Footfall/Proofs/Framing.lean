import Footfall.Proofs.Words

/-!
Queries that are put together around the name of the table. A part is calm if it is quiet without
the contents of its literals; between calm parts the guard finds the table, and nothing that it
rejects.
-/

namespace Footfall.Sql

open Report (literal)

/-- A quiet text without literals, in which no limit is stated. -/
def IsBare (a : List Char) : Prop := '\'' ∉ a ∧ IsQuiet a ∧ Lacks limitWord a

instance (a : List Char) : Decidable (IsBare a) := inferInstanceAs (Decidable (_ ∧ _))

/-- A phrase that is quiet without the contents of its literals, and that states no limit. -/
structure IsCalm (a : List Char) : Prop extends IsPhrase a where
  isQuiet : IsQuiet (blanked a)
  limitless : Lacks limitWord (blanked a)

theorem isPhrase_mark {m : Char} {a b : List Char} (hm : m ∈ marks) (ha : IsPhrase a)
    (hb : IsPhrase b) :
    IsPhrase (a ++ m :: b) ∧ blanked (a ++ m :: b) = blanked a ++ m :: blanked b := by
  have hquote : '\'' ∉ [m] := by
    rcases mem_marks.1 hm with rfl | rfl | rfl | rfl <;> decide
  obtain ⟨hmark, hblanked, -⟩ := IsPhrase.of_chars hquote
  have hrest := hmark.append hb
  refine ⟨ha.append hrest, ?_⟩
  rw [← List.singleton_append, ha.blanked_append hrest.opens, hmark.blanked_append hb.opens,
    hblanked, List.singleton_append]

namespace IsCalm

variable {a b : List Char}

theorem mark {m : Char} (hm : m ∈ marks) (ha : IsCalm a) (hb : IsCalm b) :
    IsCalm (a ++ m :: b) := by
  obtain ⟨hphrase, hblanked⟩ := isPhrase_mark hm ha.toIsPhrase hb.toIsPhrase
  refine ⟨hphrase, ?_, ?_⟩ <;> rw [hblanked]
  · exact ha.isQuiet.mark hm hb.isQuiet
  · exact ha.limitless.mark limitWord_mem hm hb.limitless

theorem blank (ha : IsCalm a) (hb : IsCalm b) : IsCalm (a ++ ' ' :: b) := mark (by decide) ha hb

theorem quote (ha : IsCalm a) (hb : IsCalm b) : IsCalm (a ++ '"' :: b) := mark (by decide) ha hb

theorem of_bare (h : IsBare a) : IsCalm a := by
  obtain ⟨hquote, hquiet, hlimit⟩ := h
  obtain ⟨hphrase, hblanked, -⟩ := IsPhrase.of_chars hquote
  refine ⟨hphrase, ?_, ?_⟩ <;> rwa [hblanked]

theorem of_digits (ha : ∀ c ∈ a, c.isDigit = true ∨ c = '-') : IsCalm a := by
  refine of_bare ⟨fun hmem ↦ ?_, .of_digits ha, lacks_of_digits ha limitWord_mem⟩
  exact (ha _ hmem).elim (by decide) (by decide)

/-- A text around a literal, of whatever content. -/
theorem of_literal (h : '\'' ∉ a ∧ 3 ≤ a.length ∧ '\'' ∉ b ∧ IsQuiet (a ++ '\'' :: '\'' :: b) ∧
    Lacks limitWord (a ++ '\'' :: '\'' :: b)) (s : String) :
    IsCalm (a ++ (literal s).toList ++ b) := by
  obtain ⟨ha, hlen, hb, hquiet, hlimit⟩ := h
  obtain ⟨hphrase, hblanked, -⟩ := IsPhrase.of_literal ha hlen s.toList
  obtain ⟨hrest, hsame, -⟩ := IsPhrase.of_chars hb
  have hall : blanked (a ++ (literal s).toList ++ b) = a ++ '\'' :: '\'' :: b := by
    rw [literal, String.toList_ofList, hphrase.blanked_append hrest.opens, hblanked, hsame]
    simp
  refine ⟨?_, ?_, ?_⟩
  · rw [literal, String.toList_ofList]
    exact hphrase.append hrest
  · rwa [hall]
  · rwa [hall]

theorem nil : IsCalm [] := of_bare (by decide)

theorem intercalate {sep : List Char}
    (hsep : ∀ a b, IsCalm a → IsCalm b → IsCalm (a ++ (sep ++ b))) {parts : List (List Char)}
    (h : ∀ a ∈ parts, IsCalm a) : IsCalm (sep.intercalate parts) := by
  induction parts with
  | nil => exact nil
  | cons a rest ih =>
    have ha := h a (List.mem_cons_self ..)
    have hrest := ih fun b hb ↦ h b (List.mem_cons_of_mem _ hb)
    cases rest with
    | nil => rwa [List.intercalate_singleton]
    | cons b rest =>
      rw [List.intercalate_cons_cons, List.append_assoc]
      exact hsep a _ ha hrest

end IsCalm

/-- A query that selects something, up to the table, and goes on after the table. -/
def framed (a z : List Char) : List Char :=
  "SELECT".toList ++ ' ' :: (a ++ ' ' :: (tableName ++ ' ' :: z))

/-- A text begins so that it does not define a table whose name stands before it. -/
def IsClause (z : List Char) : Prop :=
  ∃ c, z.head? = some c ∧ Text.isBlank c = false ∧ c ≠ '(' ∧ lowerLetter c ≠ 'a'

section

variable {a z : List Char}

theorem blanked_framed (ha : IsPhrase a) (hz : IsPhrase z) :
    blanked (framed a z) = framed (blanked a) (blanked z) := by
  have hselect := IsPhrase.of_chars (a := "SELECT".toList) (by decide)
  have hname := IsPhrase.of_chars (a := tableName) (by decide)
  obtain ⟨htable, htable'⟩ := isPhrase_mark (m := ' ') (by decide) hname.1 hz
  obtain ⟨hrest, hrest'⟩ := isPhrase_mark (m := ' ') (by decide) ha htable
  rw [framed, (isPhrase_mark (m := ' ') (by decide) hselect.1 hrest).2, hrest', htable',
    hselect.2.1, hname.2.1, framed]

theorem somewhere_isQualifiedAt {cs : List Char} (h : '.' ∉ cs) (before : Option Char) :
    somewhere isQualifiedAt before cs = false := by
  induction cs generalizing before with
  | nil => rfl
  | cons c cs ih =>
    rw [List.mem_cons, not_or] at h
    rw [somewhere, ih h.2, Bool.or_false]
    unfold isQualifiedAt
    split
    · rename_i heq
      cases heq
      exact absurd rfl h.1
    · rfl

theorem isRedefinedAt_le (before : Option Char) (cs : List Char)
    (h : isRedefinedAt before cs = true) : startsWord tableName before cs = true := by
  rw [isRedefinedAt, Bool.and_eq_true] at h
  obtain ⟨hstart, h⟩ := h
  rw [startsWord, hstart, Bool.true_and]
  split at h
  · cases h
  · rename_i hrest
    rw [hrest, Option.isSome_some]

theorem isLimitAt_le (before : Option Char) (cs : List Char)
    (h : isLimitAt before cs = true) : startsWord limitWord before cs = true := by
  rw [isLimitAt, Bool.and_eq_true] at h
  obtain ⟨hstart, h⟩ := h
  rw [startsWord, hstart, Bool.true_and]
  cases hrest : afterWord limitWord cs with
  | none =>
    have hnone : afterLeadingWord "limit".toList cs = none := by
      rw [afterLeadingWord, show afterWord "limit".toList cs = none from hrest]
    rw [hnone] at h
    cases h
  | some rest => rfl

theorem isRedefinedAt_mark {m : Char} (hm : m ∈ marks) (cs : List Char) :
    isRedefinedAt (some m) cs = isRedefinedAt none cs := by
  rw [isRedefinedAt, isRedefinedAt, isWordStart_mark hm]
  rfl

theorem isLimitAt_mark {m : Char} (hm : m ∈ marks) (cs : List Char) :
    isLimitAt (some m) cs = isLimitAt none cs := by
  rw [isLimitAt, isLimitAt, isWordStart_mark hm]
  rfl

theorem somewhere_isRedefinedAt (hz : Lacks tableName z) (hclause : IsClause z) :
    somewhere isRedefinedAt none (tableName ++ ' ' :: z) = false := by
  obtain ⟨c, hhead, hblank, hparen, hletter⟩ := hclause
  obtain ⟨rest, rfl⟩ := List.head?_eq_some_iff.1 hhead
  have hfront : isRedefinedAt none (tableName ++ ' ' :: c :: rest) = false := by
    have hafter := afterWord_append (by decide : tableName.map lowerLetter = tableName)
      (' ' :: c :: rest)
    have hskip : skipBlanks (' ' :: c :: rest) = c :: rest := by
      rw [skipBlanks, List.dropWhile_cons_of_pos (by decide),
        List.dropWhile_cons_of_neg (by simp [hblank])]
    have hskip' : skipBlanks (c :: rest) = c :: rest := by
      rw [skipBlanks, List.dropWhile_cons_of_neg (by simp [hblank])]
    have hgroup : afterGroup (c :: rest) = some (c :: rest) := by
      simp [afterGroup, hparen]
    have has : afterWord "as".toList (c :: rest) = none := by
      simp [afterWord, hletter]
    have hdrop : dropQuote (' ' :: c :: rest) = ' ' :: c :: rest := rfl
    rw [isRedefinedAt, hafter]
    simp only [hdrop, hskip, hgroup, hskip', has, Bool.and_false]
  -- no word begins inside the name
  have hinside : somewhere (startsWord tableName) (some 's') (tableName.drop 1) = false := by decide
  have hmark : ' ' ∈ marks := by decide
  have hname : tableName = 's' :: tableName.drop 1 := rfl
  rw [hname, List.cons_append, somewhere, ← List.cons_append, ← hname, hfront, Bool.false_or,
    somewhere_skip (stops_startsWord tableName_mem) isRedefinedAt_le hmark
      (isRedefinedAt_mark hmark) hinside,
    somewhere_eq_false isRedefinedAt_le hz]

theorem hasWord_framed (ha : IsQuiet a) (hz : IsQuiet z) {word : List Char}
    (hword : word ∈ writingWords) : hasWord word (framed a z) = false := by
  have hmark : ' ' ∈ marks := by decide
  have hselect : IsQuiet "SELECT".toList := by decide
  have hname : ∀ word ∈ writingWords, hasWord word tableName = false := by decide
  have hmem := mem_soughtWords hword
  rw [framed, hasWord_mark hmem hmark (hselect.writes word hword),
    hasWord_mark hmem hmark (ha.writes word hword), hasWord_mark hmem hmark (hname word hword),
    hz.writes word hword]

theorem hasWord_tableName_framed (a z : List Char) : hasWord tableName (framed a z) = true := by
  have hhere : isWordAt tableName (some ' ') (tableName ++ ' ' :: z) = true := by
    rw [isWordAt, afterWord_append (by decide : tableName.map lowerLetter = tableName)]
    rfl
  have hsplit : framed a z =
      ("SELECT".toList ++ ' ' :: (a ++ [' '])) ++ (tableName ++ ' ' :: z) := by
    simp [framed]
  rw [hsplit]
  refine somewhere_append ?_
  rw [← List.cons_append, ← List.append_assoc, List.getLast?_concat]
  exact hhere

theorem somewhere_isRedefinedAt_framed (ha : Lacks tableName a) (hz : Lacks tableName z)
    (hclause : IsClause z) : somewhere isRedefinedAt none (framed a z) = false := by
  have hmark : ' ' ∈ marks := by decide
  have hstops := stops_startsWord tableName_mem
  rw [framed, somewhere_skip hstops isRedefinedAt_le hmark (isRedefinedAt_mark hmark) (by decide),
    somewhere_skip hstops isRedefinedAt_le hmark (isRedefinedAt_mark hmark) ha,
    somewhere_isRedefinedAt hz hclause]

theorem violationOf_framed (ha : IsQuiet a) (hz : IsQuiet z) (hclause : IsClause z) :
    violationOf (framed a z) = none := by
  have hsemicolon : ';' ∉ framed a z := by
    simp [framed, ha.semicolon, hz.semicolon]
    decide
  have hdot : '.' ∉ framed a z := by
    simp [framed, ha.dot, hz.dot]
    decide
  have hselect : (afterLeadingWord "select".toList (framed a z)).isNone = false := rfl
  have hwith : startsRecursive (framed a z) = false := rfl
  have hwrites : writingWords.any (hasWord · (framed a z)) = false := by
    rw [List.any_eq_false]
    exact fun word hword ↦ by rw [hasWord_framed ha hz hword]; decide
  rw [violationOf, if_neg hsemicolon, hselect, hwrites, hasWord_tableName_framed, hwith,
    somewhere_isRedefinedAt_framed ha.names hz.names hclause, somewhere_isQualifiedAt hdot]
  rfl

theorem normalize_eq {query : List Char} {c d : Char} (hc : query.head? = some c)
    (hd : query.getLast? = some d) (hfront : Text.isBlank c = false)
    (hback : Text.isBlank d = false) (hend : d ≠ ';') : normalize query = query := by
  obtain ⟨rest, rfl⟩ := List.head?_eq_some_iff.1 hc
  obtain ⟨before, hbefore⟩ := List.getLast?_eq_some_iff.1 hd
  have htrim : Text.trimBy Text.isBlank (c :: rest) = c :: rest := by
    rw [Text.trimBy, List.dropWhile_cons_of_neg (by simp [hfront]), hbefore, List.reverse_concat,
      List.dropWhile_cons_of_neg (by simp [hback]), ← List.reverse_concat, List.reverse_reverse]
  rw [normalize, htrim, hbefore, List.reverse_concat]
  split
  · rename_i heq
    cases heq
    exact absurd rfl hend
  · rfl

/-- A query that goes on as a clause does after the table is let through as it is. -/
theorem check_framed {d : Char} (ha : IsCalm a) (hz : IsPhrase z) (hquiet : IsQuiet (blanked z))
    (hclause : IsClause z) (hd : z.getLast? = some d) (hback : Text.isBlank d = false)
    (hend : d ≠ ';') : check (framed a z) = .ok (framed a z) := by
  have hlast : (framed a z).getLast? = some d := by
    simp [framed, List.getLast?_append, List.getLast?_cons, hd]
  have hclause' : IsClause (blanked z) := by
    rwa [IsClause, head?_blanked]
  have hnormal : normalize (framed a z) = framed a z :=
    normalize_eq (c := 'S') rfl hlast (by decide) hback hend
  have hviolation : violation (framed a z) = none := by
    rw [violation, blanked_framed ha.toIsPhrase hz, violationOf_framed ha.isQuiet hquiet hclause']
    rfl
  rw [check, hnormal, hviolation]

theorem hasLimit_framed (ha : IsCalm a) (hz : IsCalm z) : hasLimit (framed a z) = false := by
  have hmark : ' ' ∈ marks := by decide
  have hstops := stops_startsWord limitWord_mem
  rw [hasLimit, blanked_framed ha.toIsPhrase hz.toIsPhrase, framed,
    somewhere_skip hstops isLimitAt_le hmark (isLimitAt_mark hmark) (by decide),
    somewhere_skip hstops isLimitAt_le hmark (isLimitAt_mark hmark) ha.limitless,
    somewhere_skip hstops isLimitAt_le hmark (isLimitAt_mark hmark) (by decide),
    somewhere_eq_false isLimitAt_le hz.limitless]

theorem not_isBlank_of_isDigit {c : Char} (h : c.isDigit = true) : Text.isBlank c = false := by
  simp only [Char.isDigit, Bool.and_eq_true, decide_eq_true_eq] at h
  have hlow : 48 ≤ c.toNat := h.1
  have hhigh : c.toNat ≤ 57 := h.2
  simp only [Text.isBlank, Text.isSpace, Text.inRanges, Text.spaceRanges, List.any_cons,
    List.any_nil, Bool.or_eq_false_iff, decide_eq_false_iff_not]
  constructorm* _ ∧ _ <;> first | trivial | omega

def limitClause (digits : List Char) : List Char := "LIMIT".toList ++ ' ' :: digits

section

variable {digits : List Char} (hdigits : ∀ c ∈ digits, c.isDigit = true)
include hdigits

theorem isPhrase_limitClause :
    IsPhrase (limitClause digits) ∧ blanked (limitClause digits) = limitClause digits := by
  have hquote : '\'' ∉ limitClause digits := by
    have hno : '\'' ∉ digits := fun h ↦ absurd (hdigits _ h) (by decide)
    simp [limitClause, hno]
  obtain ⟨hphrase, hblanked, -⟩ := IsPhrase.of_chars hquote
  exact ⟨hphrase, hblanked⟩

theorem isQuiet_limitClause : IsQuiet (limitClause digits) := by
  have hword : IsQuiet "LIMIT".toList := by decide
  exact hword.mark (by decide) (.of_digits fun c hc ↦ .inl (hdigits c hc))

theorem isLimitAt_limitClause (hne : digits ≠ []) :
    isLimitAt (some ' ') (limitClause digits) = true := by
  obtain ⟨c, rest, rfl⟩ := List.exists_cons_of_ne_nil hne
  have hc := hdigits c (List.mem_cons_self ..)
  have hskip : skipBlanks (c :: rest) = c :: rest := by
    rw [skipBlanks, List.dropWhile_cons_of_neg (by simp [not_isBlank_of_isDigit hc])]
  have hafter : afterLeadingWord "limit".toList (limitClause (c :: rest)) = some (c :: rest) := rfl
  rw [isLimitAt, hafter]
  simp [hskip, hc, isWordStart]
  decide

/-- A limit that a query states is seen, and keeps the query in bounds of the guard. -/
theorem check_limitClause (ha : IsCalm a) (hz : IsCalm z) (hclause : IsClause z)
    (hne : digits ≠ []) :
    check (framed a (z ++ ' ' :: limitClause digits)) =
        .ok (framed a (z ++ ' ' :: limitClause digits)) ∧
      hasLimit (framed a (z ++ ' ' :: limitClause digits)) = true := by
  obtain ⟨hphrase, hblanked⟩ := isPhrase_limitClause hdigits
  obtain ⟨hall, hall'⟩ := isPhrase_mark (m := ' ') (by decide) hz.toIsPhrase hphrase
  rw [hblanked] at hall'
  have hlast : (z ++ ' ' :: limitClause digits).getLast? = some (digits.getLast hne) := by
    simp [limitClause, List.getLast?_append, List.getLast?_cons, List.getLast?_eq_some_getLast hne]
  have hdigit := hdigits _ (List.getLast_mem hne)
  have hend : digits.getLast hne ≠ ';' := by
    intro heq
    rw [heq] at hdigit
    exact absurd hdigit (by decide)
  have hclause' : IsClause (z ++ ' ' :: limitClause digits) := by
    obtain ⟨c, hc, hrest⟩ := hclause
    exact ⟨c, by rw [List.head?_append, hc, Option.some_or], hrest⟩
  constructor
  · -- a clause that states a limit is quiet, but not calm
    refine check_framed ha hall ?_ hclause' hlast (not_isBlank_of_isDigit hdigit) hend
    rw [hall']
    exact hz.isQuiet.mark (by decide) (isQuiet_limitClause hdigits)
  · rw [hasLimit, blanked_framed ha.toIsPhrase hall, hall']
    have hsplit : framed (blanked a) (blanked z ++ ' ' :: limitClause digits) =
        (framed (blanked a) (blanked z) ++ [' ']) ++ limitClause digits := by
      simp [framed]
    rw [hsplit]
    refine somewhere_append ?_
    rw [List.getLast?_concat]
    exact isLimitAt_limitClause hdigits hne

end

end

end Footfall.Sql
