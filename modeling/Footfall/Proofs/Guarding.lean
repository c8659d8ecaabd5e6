import Footfall.Proofs.Lexing
import Footfall.Proofs.Literals

/-!
The guard against the lexer. A token that must not occur is found by the guard wherever the guard
reads the same place outside of what it takes for a literal, except for the name of the table when
it is set off from a dot by a comment or stands in backquotes or brackets.
-/

namespace Footfall.Sql

open Text

namespace Token

/-- Whether a token is a name, bare or quoted, of the events table, letters in either case. -/
def namesTable (t : Token) : Bool := t.name?.any fun cs ↦ cs.map Char.toLower == tableName

/-- Whether a token with those after it must not occur in a query: it ends a statement, it is a
bare word that writes, or it is a dot before the name of the table. -/
def offends : Token → List Token → Bool
  | .mark c, rest => c == ';' || (c == '.' && rest.head?.any namesTable)
  | .word cs, _ => writingWords.contains (cs.map Char.toLower)
  | _, _ => false

def isHarmless : List Token → Bool
  | [] => true
  | t :: rest => !offends t rest && isHarmless rest

end Token

open Token

/-- Whether what is at the front of a text is a token that must not occur. -/
def offendsAt : List Char → Bool
  | [] => false
  | c :: cs => (next c cs).1.any (offends · (scan (next c cs).2))

/-- Whether a text begins with a dot that no bare or double-quoted name follows, blanks apart. -/
def isDisguised : List Char → Bool
  | '.' :: cs =>
    !(cs.dropWhile isSeparator).head?.any fun c ↦ isNameStart c || c == '"'
  | _ => false

theorem isHarmless_append_toList (t : Option Token) (ts : List Token) :
    isHarmless (t.toList ++ ts) = (!t.any (offends · ts) && isHarmless ts) := by
  cases t <;> rfl

theorem isHarmless_scan_iff (q : List Char) :
    isHarmless (scan q) = true ↔ ∀ s, Comes q s → offendsAt s = false := by
  constructor
  · intro h s hs
    have hall : isHarmless (scan s) = true := by
      induction hs with
      | start => exact h
      | next _ ih =>
        rw [scan_cons, isHarmless_append_toList, Bool.and_eq_true] at ih
        exact ih.2
    cases s with
    | nil => rfl
    | cons c cs =>
      rw [scan_cons, isHarmless_append_toList, Bool.and_eq_true, Bool.not_eq_true'] at hall
      exact hall.1
  · intro h
    induction q using scan.induct with
    | case1 => simp [scan, isHarmless]
    | case2 c cs ih =>
      have hfront : offendsAt (c :: cs) = false := h _ .start
      rw [scan_cons, isHarmless_append_toList, ih fun s hs ↦ h s hs.of_next, Bool.and_true]
      simpa [offendsAt] using hfront

/-- What follows a literal follows its closing quote. -/
theorem afterLiteral_spelling {cs after : List Char} (h : afterLiteral cs = some after) :
    ∃ mid, cs = mid ++ '\'' :: after := by
  fun_induction afterLiteral cs generalizing after with
  | case1 => cases h
  | case2 rest ih =>
    cases hr : afterLiteral rest with
    | none =>
      simp only [hr, Option.none_or, Option.some.injEq] at h
      exact ⟨[], by rw [← h]; rfl⟩
    | some after' =>
      simp only [hr, Option.some_or, Option.some.injEq] at h
      obtain ⟨mid, hmid⟩ := ih hr
      exact ⟨'\'' :: '\'' :: mid, by rw [hmid, h]; rfl⟩
  | case3 rest =>
    cases h
    exact ⟨[], rfl⟩
  | case4 c rest _ _ ih =>
    obtain ⟨mid, rfl⟩ := ih h
    exact ⟨c :: mid, rfl⟩

/-- The guard comes to a place of a text outside of all that it takes for literals. -/
inductive Sees (q : List Char) : List Char → Prop
  | start : Sees q q
  | char {c : Char} {cs : List Char} : Sees q (c :: cs) →
      (c = '\'' → afterLiteral cs = none) → Sees q cs
  | literal {cs after : List Char} : Sees q ('\'' :: cs) → afterLiteral cs = some after →
      Sees q after

namespace Sees

variable {q s : List Char}

/-- A place that the guard sees is there in the blanked text, after the same character. -/
theorem exists_before (h : Sees q s) :
    ∃ before out, q = before ++ s ∧ blanked q = out ++ blanked s ∧
      out.getLast? = before.getLast? := by
  induction h with
  | start => exact ⟨[], [], rfl, rfl, rfl⟩
  | @char c cs _ hc ih =>
    obtain ⟨before, out, hq, hb, -⟩ := ih
    refine ⟨before ++ [c], out ++ [c], by simp [hq], ?_, by simp⟩
    by_cases hquote : c = '\''
    · subst hquote
      rw [hb, blanked_open (hc rfl), List.append_assoc, List.singleton_append]
    · rw [hb, blanked_cons hquote, List.append_assoc, List.singleton_append]
  | @literal cs after _ hc ih =>
    obtain ⟨before, out, hq, hb, -⟩ := ih
    obtain ⟨mid, rfl⟩ := afterLiteral_spelling hc
    refine ⟨before ++ '\'' :: mid ++ ['\''], out ++ ['\''] ++ ['\''], by simp [hq], ?_, ?_⟩
    · rw [hb, blanked_quote hc]
      simp
    · rw [List.getLast?_concat, List.getLast?_concat]

theorem chars {a b : List Char} (h : Sees q (a ++ b)) (ha : '\'' ∉ a) : Sees q b := by
  induction a with
  | nil => exact h
  | cons c a ih =>
    rw [List.mem_cons, not_or] at ha
    exact ih (.char h fun hc ↦ absurd hc.symm ha.1) ha.2

end Sees

theorem somewhere_append {p : Option Char → List Char → Bool} {a b : List Char}
    {before : Option Char} (h : p (a.getLast?.or before) b = true) :
    somewhere p before (a ++ b) = true := by
  induction a generalizing before with
  | nil => cases b <;> simp_all [somewhere]
  | cons c a ih =>
    rw [List.cons_append, somewhere, Bool.or_eq_true]
    refine .inr (ih ?_)
    rw [List.getLast?_cons] at h
    cases hl : a.getLast? <;> simpa [hl] using h

theorem afterWord_append {word w : List Char} (h : w.map lowerLetter = word) (b : List Char) :
    afterWord word (w ++ b) = some b := by
  subst h
  induction w with
  | nil => rfl
  | cons c w ih => simp [afterWord, ih]

theorem lowerLetter_eq {c : Char} (h : c.toLower.toNat < 128) : lowerLetter c = c.toLower := by
  unfold lowerLetter
  split
  · rfl
  · rename_i hlarge
    -- Only letters of ASCII are changed, so this one is as large as it was.
    have hsame : c.toLower = c := by
      unfold Char.toLower
      rw [dif_neg]
      rintro ⟨-, hle⟩
      have : c.val.toNat ≤ 90 := hle
      exact hlarge (Nat.lt_of_le_of_lt this (by decide))
    exact absurd (hsame ▸ h) hlarge

/-- To letters of ASCII the two ways of ignoring case are one. -/
theorem map_lowerLetter_eq {w word : List Char} (hword : ∀ c ∈ word, c.toNat < 128)
    (h : w.map Char.toLower = word) : w.map lowerLetter = word := by
  rw [← h]
  refine List.map_congr_left fun c hc ↦ ?_
  exact lowerLetter_eq (hword _ (h ▸ List.mem_map_of_mem hc))

theorem isWordEnd_blanked {cs : List Char} (h : ∀ d, cs.head? = some d → Text.isWord d = false) :
    isWordEnd (blanked cs) = true := by
  have hhead := head?_blanked cs
  cases hb : blanked cs with
  | nil => rfl
  | cons d rest =>
    rw [hb, List.head?_cons] at hhead
    simp [isWordEnd, h d hhead.symm]

theorem word_spelling {c : Char} {cs w : List Char} (h : (next c cs).1 = some (.word w)) :
    isNameStart c = true ∧ c :: cs = w ++ (next c cs).2 ∧ '\'' ∉ w ∧
      ∀ d, (next c cs).2.head? = some d → Text.isWord d = false := by
  have hfinds := finds_next c cs
  rw [h] at hfinds
  generalize (next c cs).2 = rest at hfinds ⊢
  cases hfinds with
  | word _ hc =>
    refine ⟨hc, by simp, fun hmem ↦ ?_, fun d hd ↦ ?_⟩
    · have hrest : isNameRest '\'' = true := by
        rcases List.mem_cons.1 hmem with heq | hmem
        · exact heq ▸ isNameRest_of_isNameStart hc
        · exact List.all_eq_true.1 List.all_takeWhile _ hmem
      exact absurd hrest (by decide)
    · have := List.head?_dropWhile_not isNameRest cs
      rw [hd] at this
      by_contra hword
      exact absurd (isNameRest_of_isWord (by simpa using hword)) (by simpa using this)

theorem toNat_lt_of_mem_writingWords :
    ∀ word ∈ writingWords, ∀ c ∈ word, c.toNat < 128 := by
  simp [writingWords]

theorem toNat_lt_of_mem_tableName : ∀ c ∈ tableName, c.toNat < 128 := by
  have hall : tableName.all (·.toNat < 128) = true := by decide
  simpa using hall

variable {query q s : List Char}

/-- The guard finds a bare word at a place that it sees. -/
theorem hasWord_of_sees {c : Char} {cs w word : List Char} (hcomes : Comes q (c :: cs))
    (hsees : Sees q (c :: cs)) (hnext : (next c cs).1 = some (.word w))
    (hword : ∀ c ∈ word, c.toNat < 128) (hw : w.map Char.toLower = word) :
    hasWord word (blanked q) = true := by
  obtain ⟨hstart, hspelling, hquote, hend⟩ := word_spelling hnext
  obtain ⟨before, hq, hbefore⟩ := hcomes.exists_before
  obtain ⟨before', out, hq', hblanked, hlast⟩ := hsees.exists_before
  obtain rfl : before = before' := List.append_cancel_right (hq.symm.trans hq')
  rw [hasWord, hblanked]
  refine somewhere_append ?_
  have hopens : isWordStart (out.getLast?.or none) = true := by
    rw [hlast]
    cases hl : before.getLast? with
    | none => rfl
    | some x => simp [isWordStart, hbefore c cs rfl hstart x hl]
  rw [isWordAt, hopens, hspelling, blanked_chars hquote,
    afterWord_append (map_lowerLetter_eq hword hw), Bool.true_and, Option.any_some]
  exact isWordEnd_blanked hend

theorem scan_dropWhile (cs : List Char) : scan (cs.dropWhile isSeparator) = scan cs := by
  induction cs with
  | nil => rfl
  | cons c cs ih =>
    by_cases hc : isSeparator c = true
    · have hnext : next c cs = (none, cs) := by rw [next, if_pos hc]
      rw [List.dropWhile_cons_of_pos hc, ih, scan_cons, hnext]
      rfl
    · rw [List.dropWhile_cons_of_neg hc]

theorem isBlank_of_isSeparator {c : Char} (h : isSeparator c = true) : isBlank c = true := by
  rcases isSeparator_cases h with rfl | rfl | rfl | rfl | rfl <;> decide

theorem skipBlanks_append {blanks cs : List Char} (h : ∀ c ∈ blanks, isBlank c = true)
    (hcs : ∀ c, cs.head? = some c → isBlank c = false) : skipBlanks (blanks ++ cs) = cs := by
  rw [skipBlanks, List.dropWhile_append_of_pos h]
  cases cs with
  | nil => rfl
  | cons c cs => rw [List.dropWhile_cons_of_neg (by simp [hcs c rfl])]

/-- A letter of ASCII is no blank. -/
theorem not_isBlank_of_toLower {c : Char} (h : c.toLower = 's') : isBlank c = false := by
  unfold Char.toLower at h
  split at h
  · rename_i hc
    have hlow : 65 ≤ c.toNat := hc.1
    have hhigh : c.toNat ≤ 90 := hc.2
    simp only [isBlank, isSpace, inRanges, spaceRanges, List.any_cons, List.any_nil,
      Bool.or_eq_false_iff, decide_eq_false_iff_not]
    constructorm* _ ∧ _ <;> first | trivial | omega
  · subst h
    decide

theorem not_mem_of_map_toLower {w word : List Char} (hword : '\'' ∉ word)
    (h : w.map Char.toLower = word) : '\'' ∉ w := fun hmem ↦
  hword (h ▸ List.mem_map.2 ⟨_, hmem, by decide⟩)

/-- The table's name, which the guard finds at the front of a text. -/
theorem any_isWordEnd_afterWord {w : List Char} (hw : w.map Char.toLower = tableName)
    {cs : List Char} (hend : ∀ d, cs.head? = some d → Text.isWord d = false) :
    (afterWord tableName (blanked (w ++ cs))).any isWordEnd = true := by
  rw [blanked_chars (not_mem_of_map_toLower (by decide) hw),
    afterWord_append (map_lowerLetter_eq toNat_lt_of_mem_tableName hw), Option.any_some]
  exact isWordEnd_blanked hend

/-- The guard finds a dot before the table's name, unless that is disguised. -/
theorem isQualifiedAt_of_name {cs : List Char} (hname : (scan cs).head?.any namesTable = true)
    (hplain : isDisguised ('.' :: cs) = false) (before : Option Char) :
    isQualifiedAt before ('.' :: blanked cs) = true := by
  have hcs := (List.takeWhile_append_dropWhile (p := isSeparator) (l := cs)).symm
  have hblanks : ∀ c ∈ cs.takeWhile isSeparator, isSeparator c = true :=
    List.all_eq_true.1 List.all_takeWhile
  have hquote : '\'' ∉ cs.takeWhile isSeparator := fun hmem ↦
    absurd (hblanks _ hmem) (by decide)
  rw [← scan_dropWhile] at hname
  rw [isDisguised, Bool.not_eq_false'] at hplain
  generalize cs.dropWhile isSeparator = rest at hcs hname hplain
  obtain _ | ⟨c, rest⟩ := rest
  · simp at hplain
  rw [hcs, blanked_chars hquote]
  have hskip (hc : isBlank c = false) :
      skipBlanks (cs.takeWhile isSeparator ++ blanked (c :: rest)) = blanked (c :: rest) :=
    skipBlanks_append (fun d hd ↦ isBlank_of_isSeparator (hblanks d hd)) fun d hd ↦ by
      rw [head?_blanked, List.head?_cons, Option.some.injEq] at hd
      exact hd ▸ hc
  rw [isQualifiedAt]
  rw [List.head?_cons, Option.any_some, Bool.or_eq_true, beq_iff_eq] at hplain
  rcases hplain with hstart | rfl
  · -- The name stands bare.
    have hnext := congrArg Prod.fst (next_of_isNameStart hstart rest)
    obtain ⟨-, hspelling, -, hend⟩ := word_spelling hnext
    rw [scan_cons, hnext] at hname
    have hw : (c :: rest.takeWhile isNameRest).map Char.toLower = tableName := by
      simpa [namesTable, name?] using hname
    have hc : c.toLower = 's' := by
      have hhead : some c.toLower = tableName.head? := congrArg List.head? hw
      exact Option.some.inj (hhead.trans (by decide))
    have hnoquote : c ≠ '"' := by
      rintro rfl
      exact absurd hstart (by decide)
    have hdrop : dropQuote (blanked (c :: rest)) = blanked (c :: rest) := by
      have hhead := head?_blanked (c :: rest)
      unfold dropQuote
      split
      · rename_i hb
        rw [hb] at hhead
        exact absurd (by simpa using hhead.symm) hnoquote
      · rfl
    rw [hskip (not_isBlank_of_toLower hc), hdrop, hspelling]
    exact any_isWordEnd_afterWord hw hend
  · -- The name stands in double quotes.
    rw [hskip (by decide), blanked_cons (by decide), dropQuote]
    rw [scan_cons] at hname
    have hfinds := finds_next '"' rest
    generalize (next '"' rest).1 = t, (next '"' rest).2 = after at hfinds hname
    cases hfinds with
    | separator _ hc => exact absurd hc (by decide)
    | quoted hc h =>
      rename_i content
      have hw : content.map Char.toLower = tableName := by
        simpa [namesTable, name?] using hname
      obtain ⟨mid, hmid, hcontent⟩ := closeQuote_spelling h
      obtain rfl : mid = content := hcontent fun hmem ↦
        absurd (hw ▸ List.mem_map_of_mem hmem : Char.toLower '"' ∈ tableName) (by decide)
      rw [hmid]
      exact any_isWordEnd_afterWord hw fun d hd ↦ by
        obtain rfl : '"' = d := by simpa using hd
        decide
    | unfinished => simp [namesTable, name?] at hname
    | word _ hc => exact absurd hc (by decide)
    | number _ hc => exact absurd hc (by decide)
    | mark _ hno => exact absurd (by simp) hno

/-- What the guard has made sure of in a query that it lets through. -/
theorem checked_of_check (h : check query = .ok q) :
    ';' ∉ blanked q ∧ (∀ word ∈ writingWords, hasWord word (blanked q) = false) ∧
      somewhere isQualifiedAt none (blanked q) = false := by
  have hviolation : violation q = none := by
    simp only [check] at h
    split at h
    · cases h
    · cases h
      assumption
  have hnone : violationOf (blanked q) = none := by
    unfold violation at hviolation
    split at hviolation
    · cases hviolation
    · exact hviolation
  unfold violationOf at hnone
  split_ifs at hnone with hseveral _ hwrites _ _ hqualified
  rw [Bool.not_eq_true, List.any_eq_false] at hwrites
  rw [Bool.not_eq_true, Bool.or_eq_false_iff] at hqualified
  exact ⟨hseveral, fun word hword ↦ by simpa using hwrites word hword, hqualified.1⟩

/-- A token that must not occur escapes the guard only where the guard does not see it, or by a
disguise. -/
theorem isDisguised_of_sees (h : check query = .ok q) (hcomes : Comes q s) (hsees : Sees q s)
    (hoffends : offendsAt s = true) : isDisguised s = true := by
  obtain ⟨hseveral, hwrites, hqualified⟩ := checked_of_check h
  obtain ⟨before, out, -, hblanked, -⟩ := hsees.exists_before
  obtain _ | ⟨c, cs⟩ := s
  · cases hoffends
  rw [offendsAt, Option.any_eq_true] at hoffends
  obtain ⟨t, ht, hoffends⟩ := hoffends
  cases t with
  | mark d =>
    have hfinds := finds_next c cs
    rw [ht] at hfinds
    obtain ⟨rfl, hrest⟩ : c = d ∧ (next c cs).2 = cs := by
      generalize (next c cs).2 = rest at hfinds ⊢
      cases hfinds
      exact ⟨rfl, rfl⟩
    simp only [offends, hrest, Bool.or_eq_true, Bool.and_eq_true, beq_iff_eq] at hoffends
    rcases hoffends with rfl | ⟨rfl, hname⟩
    · rw [hblanked, blanked_cons (by decide)] at hseveral
      exact absurd (by simp) hseveral
    · by_contra hplain
      rw [hblanked, blanked_cons (by decide)] at hqualified
      have hfound : somewhere isQualifiedAt none (out ++ '.' :: blanked cs) = true :=
        somewhere_append (isQualifiedAt_of_name hname (by simpa using hplain) _)
      exact absurd (hqualified.symm.trans hfound) (by decide)
  | word w =>
    have hw : w.map Char.toLower ∈ writingWords := by simpa [offends] using hoffends
    have hfound := hasWord_of_sees hcomes hsees ht (toNat_lt_of_mem_writingWords _ hw) rfl
    exact absurd ((hwrites _ hw).symm.trans hfound) (by decide)
  | literal | quoted | number | unfinished => cases hoffends

/-- A literal of the lexer is one of the guard. -/
theorem afterLiteral_of_closeQuote {cs content rest : List Char}
    (h : closeQuote '\'' cs = some (content, rest)) : afterLiteral cs = some rest := by
  induction cs using closeQuote.induct '\'' generalizing content with
  | case1 => simp [closeQuote] at h
  | case2 => simpa [closeQuote, afterLiteral] using (by simpa [closeQuote] using h : _ ∧ _).2
  | case3 c hc => simp [closeQuote, hc] at h
  | case4 r ih =>
    simp only [closeQuote, if_true, Option.map_eq_some_iff, Prod.mk.injEq] at h
    obtain ⟨p, hp, -, rfl⟩ := h
    rw [afterLiteral, ih hp, Option.some_or]
  | case5 c' r hc =>
    simp only [closeQuote, if_true, hc, if_false, Option.some.injEq, Prod.mk.injEq] at h
    obtain ⟨-, rfl⟩ := h
    simp [afterLiteral, hc]
  | case6 c c' r hc ih =>
    simp only [closeQuote, hc, if_false, Option.map_eq_some_iff, Prod.mk.injEq] at h
    obtain ⟨p, hp, -, rfl⟩ := h
    rw [← ih hp]
    simp [afterLiteral, hc]

/-- Quotes stand around literals and inside them only: no comment and no quoted name has one, and
every literal is closed. -/
def HasNoStrayQuote (q : List Char) : Prop :=
  ∀ c cs, Comes q (c :: cs) → (∃ content, (next c cs).1 = some (.literal content)) ∨
    ∀ mid, cs = mid ++ (next c cs).2 → '\'' ∉ c :: mid

theorem sees_of_comes (hq : HasNoStrayQuote q) (h : Comes q s) : Sees q s := by
  induction h with
  | start => exact .start
  | @next c cs hcomes ih =>
    rcases hq c cs hcomes with ⟨content, hliteral⟩ | hnone
    · have hfinds := finds_next c cs
      rw [hliteral] at hfinds
      generalize (next c cs).2 = rest at hfinds ⊢
      cases hfinds with
      | literal hclose => exact .literal ih (afterLiteral_of_closeQuote hclose)
    · obtain ⟨mid, hmid, -⟩ := (finds_next c cs).exists_spelling
      have hsplit : c :: cs = (c :: mid) ++ (next c cs).2 := by rw [List.cons_append, ← hmid]
      exact Sees.chars (hsplit ▸ ih) (hnone mid hmid)

/-- A query that the guard lets through has a token that must not occur exactly when there is one
that the guard does not see, or one in disguise. It sees all of them if there are no stray quotes. -/
theorem not_isHarmless_scan_iff (h : check query = .ok q) :
    (isHarmless (scan q) = false ↔ ∃ s, Comes q s ∧ offendsAt s = true ∧
      (¬Sees q s ∨ isDisguised s = true)) ∧
    (HasNoStrayQuote q → ∀ s, Comes q s → Sees q s) := by
  refine ⟨⟨fun hharm ↦ ?_, fun ⟨s, hcomes, hoffends, _⟩ ↦ ?_⟩, fun hq s ↦ sees_of_comes hq⟩
  · obtain ⟨s, hcomes, hoffends⟩ : ∃ s, Comes q s ∧ offendsAt s = true := by
      by_contra hno
      have hall : isHarmless (scan q) = true := (isHarmless_scan_iff q).2 fun s hs ↦ by
        by_contra hs'
        exact hno ⟨s, hs, by simpa using hs'⟩
      exact absurd (hharm.symm.trans hall) (by decide)
    refine ⟨s, hcomes, hoffends, ?_⟩
    by_cases hsees : Sees q s
    · exact .inr (isDisguised_of_sees h hcomes hsees hoffends)
    · exact .inl hsees
  · by_contra hharm
    have hnone := (isHarmless_scan_iff q).1 (by simpa using hharm) s hcomes
    exact absurd (hnone.symm.trans hoffends) (by decide)

/-- The text of a query that names the table through its schema, with a comment after the dot. -/
def commentedTable : List Char := "SELECT * FROM main./**/site_events".toList

theorem not_isHarmless_scan_iff_commented :
    check commentedTable = .ok commentedTable ∧
      (isHarmless (scan commentedTable) = false ↔ ∃ s, Comes commentedTable s ∧
        offendsAt s = true ∧ (¬Sees commentedTable s ∨ isDisguised s = true)) :=
  have h : check commentedTable = .ok commentedTable := by decide +kernel
  ⟨h, (not_isHarmless_scan_iff h).1⟩

theorem commentedTable_accepted :
    check commentedTable = .ok commentedTable ∧ isHarmless (scan commentedTable) = false := by
  decide +kernel

/-- Quotes in two comments hide from the guard what stands between the comments. -/
example :
    let q := "SELECT 1 FROM site_events -- '\n; DELETE FROM site_events -- '".toList
    check q = .ok q ∧ isHarmless (scan q) = false := by
  decide +kernel

end Footfall.Sql
