import Footfall.Proofs.Lexing
import Mathlib.Data.List.TakeWhile

/-!
Texts that are appended to a query. Unless the query ends inside a comment, the lexer reads what is
appended to it behind a blank as it reads it by itself.
-/

namespace Footfall.Sql

/-- A comment without an end, at the front of a text. -/
inductive IsOpenComment : List Char → Prop
  | line {cs : List Char} : '\n' ∉ cs → IsOpenComment ('-' :: '-' :: cs)
  | block {cs : List Char} : ¬['*', '/'] <:+: cs → IsOpenComment ('/' :: '*' :: cs)

/-- The lexer comes to a comment that has no end. -/
def EndsInComment (q : List Char) : Prop := ∃ s, Comes q s ∧ IsOpenComment s

theorem EndsInComment.of_next {c : Char} {cs : List Char}
    (h : EndsInComment (Token.next c cs).2) : EndsInComment (c :: cs) := by
  obtain ⟨s, hcomes, hopen⟩ := h
  exact ⟨s, hcomes.of_next, hopen⟩

/-- A text without the characters that close literals and quoted names. -/
def IsPlain (s : List Char) : Prop := ∀ d ∈ s, d ∉ ['\'', '"', '\x60', ']']

namespace Token

variable {q c : Char} {cs s : List Char}

theorem closeQuote_append {p : List Char × List Char} (hq : q ≠ ' ')
    (h : closeQuote q cs = some p) : closeQuote q (cs ++ ' ' :: s) = some (p.1, p.2 ++ ' ' :: s) := by
  induction cs using closeQuote.induct q generalizing p with
  | case1 => simp [closeQuote] at h
  | case2 =>
    simp only [closeQuote, if_true, Option.some.injEq] at h
    subst h
    simp [closeQuote, hq.symm]
  | case3 c hc => simp [closeQuote, hc] at h
  | case4 rest ih =>
    simp only [closeQuote, if_true, Option.map_eq_some_iff] at h
    obtain ⟨r, hr, rfl⟩ := h
    simp [closeQuote, ih hr]
  | case5 c' rest hc =>
    simp only [closeQuote, if_true, hc, if_false, Option.some.injEq] at h
    subst h
    simp [closeQuote, hc]
  | case6 c c' rest hc ih =>
    simp only [closeQuote, hc, if_false, Option.map_eq_some_iff] at h
    obtain ⟨r, hr, rfl⟩ := h
    have hrest : closeQuote q (c' :: (rest ++ ' ' :: s)) = some (r.1, r.2 ++ ' ' :: s) := ih hr
    simp [closeQuote, hc, hrest]

theorem closeQuote_eq_none (h : q ∉ cs) : closeQuote q cs = none := by
  induction cs using closeQuote.induct q <;> simp_all [closeQuote]

theorem closeQuote_append_eq_none (hs : q ∉ ' ' :: s) (h : closeQuote q cs = none) :
    closeQuote q (cs ++ ' ' :: s) = none := by
  induction cs using closeQuote.induct q with
  | case1 => exact closeQuote_eq_none hs
  | case2 => simp [closeQuote] at h
  | case3 c hc => simp [closeQuote, hc, closeQuote_eq_none hs]
  | case4 rest ih =>
    simp only [closeQuote, if_true, Option.map_eq_none_iff] at h
    simp [closeQuote, ih h]
  | case5 c' rest hc => simp [closeQuote, hc] at h
  | case6 c c' rest hc ih =>
    simp only [closeQuote, hc, if_false, Option.map_eq_none_iff] at h
    have hrest : closeQuote q (c' :: (rest ++ ' ' :: s)) = none := ih h
    simp [closeQuote, hc, hrest]

theorem afterComment_append (h : ['*', '/'] <:+: cs) (t : List Char) :
    afterComment (cs ++ t) = afterComment cs ++ t := by
  fun_induction afterComment cs with
  | case1 rest => rfl
  | case2 c rest hc ih =>
    have hrest : ['*', '/'] <:+: rest := by
      rcases List.infix_cons_iff.1 h with ⟨u, hu⟩ | hinfix
      · obtain ⟨rfl, rfl⟩ := List.cons.inj hu
        exact (hc u rfl rfl).elim
      · exact hinfix
    have hnil : rest ≠ [] := List.ne_nil_of_mem (hrest.subset List.mem_cons_self)
    obtain ⟨d, rest, rfl⟩ := List.exists_cons_of_ne_nil hnil
    have hne : ∀ r, c = '*' → d :: (rest ++ t) = '/' :: r → False := by
      rintro r rfl hr
      obtain ⟨rfl, -⟩ := List.cons.inj hr
      exact hc rest rfl rfl
    rw [List.cons_append, List.cons_append, afterComment, ← List.cons_append, ih hrest]
    exact hne
  | case3 => simp at h

section

variable {p : Char → Bool}

theorem dropWhile_append_of_mem {d : Char} (hd : d ∈ cs) (hp : p d = false) (t : List Char) :
    (cs ++ t).dropWhile p = cs.dropWhile p ++ t := by
  rw [List.dropWhile_append, if_neg]
  intro hnil
  rw [List.isEmpty_iff, List.dropWhile_eq_nil_iff] at hnil
  simp [hnil d hd] at hp

theorem takeWhile_append_of_mem {d : Char} (hd : d ∈ cs) (hp : p d = false) (t : List Char) :
    (cs ++ t).takeWhile p = cs.takeWhile p := by
  rw [List.takeWhile_append, if_neg]
  intro hlength
  have hall := List.takeWhile_eq_self_iff.1 ((List.takeWhile_prefix p).eq_of_length hlength)
  simp [hall d hd] at hp

theorem dropWhile_append_blank (hp : p ' ' = false) (cs s : List Char) :
    (cs ++ ' ' :: s).dropWhile p = cs.dropWhile p ++ ' ' :: s := by
  induction cs with
  | nil => simp [hp]
  | cons c cs ih => cases hc : p c <;> simp [hc, ih]

theorem takeWhile_append_blank (hp : p ' ' = false) (cs s : List Char) :
    (cs ++ ' ' :: s).takeWhile p = cs.takeWhile p := by
  induction cs with
  | nil => simp [hp]
  | cons c cs ih => cases hc : p c <;> simp [hc, ih]

end

/-- What is found where a literal or a quoted name begins, if it has an end. -/
def closed (make : List Char → Token) (p : Option (List Char × List Char)) :
    Option Token × List Char :=
  (p.map fun p ↦ (some (make p.1), p.2)).getD (some .unfinished, [])

/-- The content up to a closing bracket, and the rest. -/
def closeBracket (cs : List Char) : Option (List Char × List Char) :=
  match cs.dropWhile (· ≠ ']') with
  | _ :: rest => some (cs.takeWhile (· ≠ ']'), rest)
  | [] => none

theorem closeBracket_eq_none_iff : closeBracket cs = none ↔ ']' ∉ cs := by
  have hnil : cs.dropWhile (fun d ↦ decide (d ≠ ']')) = [] ↔ ']' ∉ cs := by
    rw [List.dropWhile_eq_nil_iff]
    exact ⟨fun h hmem ↦ by simpa using h ']' hmem, fun hno d hd ↦
      decide_eq_true fun h ↦ hno (h ▸ hd)⟩
  rw [← hnil, closeBracket]
  cases cs.dropWhile (fun d ↦ decide (d ≠ ']')) <;> simp

theorem next_single (cs : List Char) :
    next '\'' cs = closed .literal (closeQuote '\'' cs) := by
  simp only [next, isSeparator]
  cases closeQuote '\'' cs <;> rfl

theorem next_double (hc : c = '"' ∨ c = '\x60') (cs : List Char) :
    next c cs = closed .quoted (closeQuote c cs) := by
  rcases hc with rfl | rfl
  · simp only [next, isSeparator]
    cases closeQuote '"' cs <;> rfl
  · simp only [next, isSeparator]
    cases closeQuote '\x60' cs <;> rfl

theorem next_bracket (cs : List Char) : next '[' cs = closed .quoted (closeBracket cs) := by
  simp only [next, isSeparator, closeBracket]
  cases cs.dropWhile (fun d ↦ decide (d ≠ ']')) <;> rfl

/-- What closes something goes on past a blank, and finds no end in a text without closing
characters. -/
structure Closes (close : List Char → Option (List Char × List Char)) : Prop where
  append : ∀ {cs p} s, close cs = some p → close (cs ++ ' ' :: s) = some (p.1, p.2 ++ ' ' :: s)
  append_none : ∀ {cs s}, IsPlain s → close cs = none → close (cs ++ ' ' :: s) = none

theorem closes_closeQuote (hq : q ∈ ['\'', '"', '\x60']) : Closes (closeQuote q) := by
  have hblank : q ≠ ' ' := by
    rintro rfl
    simp at hq
  refine ⟨fun s ↦ closeQuote_append hblank, fun hs ↦ closeQuote_append_eq_none ?_⟩
  rw [List.mem_cons, not_or]
  refine ⟨hblank, fun hmem ↦ hs q hmem ?_⟩
  simp only [List.mem_cons] at hq ⊢
  tauto

theorem closes_closeBracket : Closes closeBracket := by
  constructor
  · intro cs p s h
    have hmem : ']' ∈ cs := by
      by_contra hno
      simp [closeBracket_eq_none_iff.2 hno] at h
    unfold closeBracket at h ⊢
    rw [dropWhile_append_of_mem hmem (by simp), takeWhile_append_of_mem hmem (by simp)]
    cases hrest : cs.dropWhile (fun d ↦ decide (d ≠ ']')) with
    | nil =>
      rw [hrest] at h
      cases h
    | cons d rest =>
      rw [hrest] at h
      cases h
      rfl
  · intro cs s hs h
    rw [closeBracket_eq_none_iff] at h ⊢
    have hplain : ']' ∉ s := fun hmem ↦ hs ']' hmem (by simp)
    simp [h, hplain]

/-- Whether a literal or a quoted name begins with a character, and what closes it. -/
theorem next_cases (c : Char) :
    (∃ make close, Closes close ∧ (∀ content, make content ≠ .unfinished) ∧
        ∀ cs, next c cs = closed make (close cs)) ∨
      c ∉ ['\'', '"', '\x60', '['] := by
  by_cases hc : c ∈ ['\'', '"', '\x60', '[']
  · refine .inl ?_
    simp only [List.mem_cons, List.not_mem_nil, or_false] at hc
    rcases hc with rfl | rfl | rfl | rfl
    · exact ⟨.literal, _, closes_closeQuote (by simp), nofun, next_single⟩
    · exact ⟨.quoted, _, closes_closeQuote (by simp), nofun, next_double (.inl rfl)⟩
    · exact ⟨.quoted, _, closes_closeQuote (by simp), nofun, next_double (.inr rfl)⟩
    · exact ⟨.quoted, _, closes_closeBracket, nofun, next_bracket⟩
  · exact .inr hc

theorem bare_append (c : Char) (cs s : List Char) :
    bare c (cs ++ ' ' :: s) = ((bare c cs).1, (bare c cs).2 ++ ' ' :: s) := by
  have hname : isNameRest ' ' = false := by decide
  have hnumber : isNumberRest ' ' = false := by decide
  unfold bare
  split
  · rw [takeWhile_append_blank hname, dropWhile_append_blank hname]
  split
  · rw [takeWhile_append_blank hnumber, dropWhile_append_blank hnumber]
  · rfl

theorem next_line_append (hopen : ¬IsOpenComment ('-' :: '-' :: cs)) (s : List Char) :
    next '-' ('-' :: cs ++ ' ' :: s) =
      ((next '-' ('-' :: cs)).1, (next '-' ('-' :: cs)).2 ++ ' ' :: s) := by
  have hmem : '\n' ∈ '-' :: cs := by
    by_contra hno
    exact hopen (.line fun h ↦ hno (by simp [h]))
  have hnext (cs : List Char) :
      next '-' ('-' :: cs) = (none, ('-' :: cs).dropWhile (· ≠ '\n')) := rfl
  rw [List.cons_append, hnext, hnext, ← List.cons_append, dropWhile_append_of_mem hmem (by simp)]

theorem next_block_append (hopen : ¬IsOpenComment ('/' :: '*' :: cs)) (s : List Char) :
    next '/' ('*' :: cs ++ ' ' :: s) =
      ((next '/' ('*' :: cs)).1, (next '/' ('*' :: cs)).2 ++ ' ' :: s) := by
  have hclosed : ['*', '/'] <:+: cs := by
    by_contra hno
    exact hopen (.block hno)
  have hpos : 0 < cs.length := List.length_pos_of_mem (hclosed.subset List.mem_cons_self)
  have hsep : ¬isSeparator '/' = true := by decide
  simp [next, hsep, hpos, afterComment_append hclosed]

theorem next_append_of_notMem (hc : c ∉ ['\'', '"', '\x60', '[']) (hopen : ¬IsOpenComment (c :: cs))
    (s : List Char) : next c (cs ++ ' ' :: s) = ((next c cs).1, (next c cs).2 ++ ' ' :: s) := by
  have hhead (d : Char) (hd : d ≠ ' ') :
      (cs ++ ' ' :: s).head? = some d ↔ cs.head? = some d := by
    cases cs <;> simp [hd.symm]
  by_cases hsep : isSeparator c = true
  · simp [next, hsep]
  by_cases hline : c = '-' ∧ cs.head? = some '-'
  · obtain ⟨rfl, hdash⟩ := hline
    obtain ⟨r, rfl⟩ := List.head?_eq_some_iff.1 hdash
    exact next_line_append hopen s
  by_cases hblock : c = '/' ∧ cs.head? = some '*'
  · obtain ⟨rfl, hstar⟩ := hblock
    obtain ⟨r, rfl⟩ := List.head?_eq_some_iff.1 hstar
    exact next_block_append hopen s
  -- the blank neither begins a comment nor goes on with a word or a number
  · rw [next_eq_bare hsep hline hblock hc, next_eq_bare hsep _ _ hc, bare_append]
    · rwa [hhead '-' (by decide)]
    · rwa [hhead '*' (by decide)]

/-- A text behind a blank does not change what is found at the front of a text, unless that is the
beginning of something that has no end. -/
theorem next_append (hopen : ¬IsOpenComment (c :: cs)) (hfinished : (next c cs).1 ≠ some .unfinished)
    (s : List Char) : next c (cs ++ ' ' :: s) = ((next c cs).1, (next c cs).2 ++ ' ' :: s) := by
  rcases next_cases c with ⟨make, close, hclose, hmake, hnext⟩ | hc
  · rw [hnext] at hfinished ⊢
    rw [hnext]
    cases hp : close cs with
    | none => simp [closed, hp] at hfinished
    | some p => simp [closed, hclose.append s hp]
  · exact next_append_of_notMem hc hopen s

/-- What has no end has none either with a plain text behind it. -/
theorem next_append_unfinished {s : List Char} (hs : IsPlain s)
    (h : (next c cs).1 = some .unfinished) :
    (next c (cs ++ ' ' :: s)).1 = some .unfinished := by
  rcases next_cases c with ⟨make, close, hclose, hmake, hnext⟩ | hc
  · rw [hnext] at h ⊢
    cases hp : close cs with
    | none => simp [closed, hclose.append_none hs hp]
    | some p => simp [closed, hp, hmake] at h
  · have hfound := finds_next c cs
    rw [h] at hfound
    generalize (next c cs).2 = rest at hfound
    cases hfound with
    | unfinished cs hopening => simp_all

theorem not_isNameStart_of_isDigit (hc : c.isDigit = true) : isNameStart c = false := by
  simp only [Char.isDigit, Bool.and_eq_true, decide_eq_true_eq, UInt32.le_iff_toNat_le] at hc
  have hbounds : 48 ≤ c.toNat ∧ c.toNat ≤ 57 := hc
  have hunder : c ≠ '_' := by
    rintro rfl
    exact absurd hbounds (by decide)
  have halpha : ¬c.isAlpha = true := by
    intro h
    rcases Bool.or_eq_true_iff.1 h with hupper | hlower
    · have hge : 65 ≤ c.toNat := (of_decide_eq_true hupper).1
      omega
    · have hge : 97 ≤ c.toNat := of_decide_eq_true (Bool.and_eq_true_iff.1 hlower).1
      omega
  have hascii : ¬128 ≤ c.toNat := by omega
  simp [isNameStart, halpha, hunder, hascii]

theorem next_of_isDigit (hc : c.isDigit = true) (cs : List Char) :
    next c cs = (some (.number (c :: cs.takeWhile isNumberRest)), cs.dropWhile isNumberRest) := by
  have hname : ¬isNameStart c = true := by simp [not_isNameStart_of_isDigit hc]
  rw [next_of_sort hc rfl, bare, if_neg hname, if_pos hc]

/-- A text behind a blank is read by itself, if the text before it does not end inside a comment and
leaves nothing unfinished. -/
theorem scan_append (hopen : ¬EndsInComment cs) (hfinished : .unfinished ∉ scan cs)
    (s : List Char) : scan (cs ++ ' ' :: s) = scan cs ++ scan s := by
  fun_induction scan cs with
  | case1 =>
    rw [List.nil_append, scan_cons]
    rfl
  | case2 c cs ih =>
    have hfront : ¬IsOpenComment (c :: cs) := fun h ↦ hopen ⟨_, .start, h⟩
    simp only [List.mem_append, not_or, Option.mem_toList] at hfinished
    rw [List.cons_append, scan_cons, next_append hfront (fun h ↦ hfinished.1 h),
      ih (fun h ↦ hopen h.of_next) hfinished.2, List.append_assoc]

/-- What a text leaves unfinished stays so with a plain text behind it. -/
theorem unfinished_mem_scan_append {s : List Char} (hs : IsPlain s) (hopen : ¬EndsInComment cs)
    (h : .unfinished ∈ scan cs) : .unfinished ∈ scan (cs ++ ' ' :: s) := by
  fun_induction scan cs with
  | case1 => simp at h
  | case2 c cs ih =>
    rw [List.cons_append, scan_cons]
    by_cases hfront : (next c cs).1 = some .unfinished
    · simp [next_append_unfinished hs hfront]
    · have hrest : .unfinished ∈ scan (next c cs).2 := by
        rcases List.mem_append.1 h with hmem | hmem
        · exact absurd (Option.mem_toList.1 hmem) hfront
        · exact hmem
      have hcomment : ¬IsOpenComment (c :: cs) := fun h ↦ hopen ⟨_, .start, h⟩
      rw [next_append hcomment hfront]
      exact List.mem_append_right _ (ih (fun h ↦ hopen h.of_next) hrest)

end Token

theorem isPlain_limit {ds : List Char} (hds : ∀ d ∈ ds, d.isDigit = true) :
    IsPlain ("LIMIT ".toList ++ ds) := by
  have hword : ∀ d ∈ "LIMIT ".toList, d ∉ ['\'', '"', '\x60', ']'] := by
    simp
  have hquotes : ∀ d ∈ ['\'', '"', '\x60', ']'], d.isDigit = false := by
    intro d hd
    simp only [List.mem_cons, List.not_mem_nil, or_false] at hd
    rcases hd with rfl | rfl | rfl | rfl <;> rfl
  intro d hd hquote
  rcases List.mem_append.1 hd with hd | hd
  · exact hword d hd hquote
  · exact absurd (hds d hd) (by simp [hquotes d hquote])

/-- The tokens of a limit. -/
theorem scan_limit {ds : List Char} (hne : ds ≠ []) (hds : ∀ d ∈ ds, d.isDigit = true) :
    Token.scan ("LIMIT ".toList ++ ds) = [.word "LIMIT".toList, .number ds] := by
  obtain ⟨d, rest, rfl⟩ := List.exists_cons_of_ne_nil hne
  have hword : Token.next 'L' ("IMIT ".toList ++ d :: rest) =
      (some (.word "LIMIT".toList), ' ' :: d :: rest) := by
    rw [Token.next_of_isNameStart (by decide)]
    simp [Token.isNameRest]
  have hblank : Token.next ' ' (d :: rest) = (none, d :: rest) := rfl
  have hnumber : Token.next d rest = (some (.number (d :: rest)), []) := by
    have hrest : ∀ x ∈ rest, Token.isNumberRest x = true := by
      intro x hx
      simp [Token.isNumberRest, Token.isNameRest, Char.isAlphanum, hds x (by simp [hx])]
    rw [Token.next_of_isDigit (hds d (by simp)), List.takeWhile_eq_self_iff.2 hrest,
      List.dropWhile_eq_nil_iff.2 hrest]
  calc Token.scan ("LIMIT ".toList ++ d :: rest)
      = Token.scan ('L' :: ("IMIT ".toList ++ d :: rest)) := rfl
    _ = [.word "LIMIT".toList, .number (d :: rest)] := by
      rw [Token.scan_cons, hword, Token.scan_cons, hblank, Token.scan_cons, hnumber, Token.scan]
      rfl

end Footfall.Sql
