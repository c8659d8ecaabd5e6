import Footfall.Sql.Token
import Mathlib.Data.List.Basic

/-!
What the lexer of the embedded stores takes off the front of a text, and the places of a text that
it comes to. Before a place where a name begins there is no character of a word.
-/

namespace Footfall.Sql

open Text

namespace Token

theorem isNameRest_of_isNameStart {c : Char} (h : isNameStart c = true) :
    isNameRest c = true := by
  simp only [isNameStart, isNameRest, Char.isAlphanum, Bool.or_eq_true] at h ⊢
  tauto

theorem isNameRest_of_isWord {c : Char} (h : Text.isWord c = true) : isNameRest c = true := by
  unfold Text.isWord at h
  split at h
  · simp only [isNameRest, Bool.or_eq_true] at h ⊢
    tauto
  · rename_i hc
    simp [isNameRest, Nat.not_lt.1 hc]

theorem closeQuote_spelling {q : Char} {cs content rest : List Char}
    (h : closeQuote q cs = some (content, rest)) :
    ∃ mid, cs = mid ++ q :: rest ∧ (q ∉ content → mid = content) := by
  induction cs using closeQuote.induct q generalizing content with
  | case1 => simp [closeQuote] at h
  | case2 =>
    simp only [closeQuote, if_true, Option.some.injEq, Prod.mk.injEq] at h
    obtain ⟨rfl, rfl⟩ := h
    exact ⟨[], rfl, fun _ ↦ rfl⟩
  | case3 c hc => simp [closeQuote, hc] at h
  | case4 r ih =>
    simp only [closeQuote, if_true, Option.map_eq_some_iff, Prod.mk.injEq] at h
    obtain ⟨p, hp, rfl, rfl⟩ := h
    obtain ⟨mid, rfl, -⟩ := ih hp
    exact ⟨q :: q :: mid, rfl, fun hno ↦ absurd (by simp) hno⟩
  | case5 c' r hc =>
    simp only [closeQuote, if_true, hc, if_false, Option.some.injEq, Prod.mk.injEq] at h
    obtain ⟨rfl, rfl⟩ := h
    exact ⟨[], rfl, fun _ ↦ rfl⟩
  | case6 c c' r hc ih =>
    simp only [closeQuote, hc, if_false, Option.map_eq_some_iff, Prod.mk.injEq] at h
    obtain ⟨p, hp, rfl, rfl⟩ := h
    obtain ⟨mid, hmid, hcontent⟩ := ih hp
    refine ⟨c :: mid, by rw [hmid, List.cons_append], fun hno ↦ ?_⟩
    rw [hcontent fun hq ↦ hno (by simp [hq])]

theorem afterComment_spelling (cs : List Char) :
    ∃ mid, cs = mid ++ afterComment cs ∧
      (afterComment cs ≠ [] → mid.getLast? = some '/') := by
  fun_induction afterComment cs with
  | case1 rest => exact ⟨['*', '/'], rfl, fun _ ↦ rfl⟩
  | case2 c rest _ ih =>
    obtain ⟨mid, hmid, hlast⟩ := ih
    refine ⟨c :: mid, by rw [List.cons_append, ← hmid], fun hne ↦ ?_⟩
    rw [List.getLast?_cons, hlast hne, Option.getD_some]
  | case3 => exact ⟨[], rfl, fun h ↦ absurd rfl h⟩

/-- What may stand at the front of a text: nothing of account, or a token. -/
inductive Finds : Char → List Char → Option Token → List Char → Prop
  | separator {c : Char} (cs : List Char) (hc : isSeparator c = true) : Finds c cs none cs
  | line (cs : List Char) : Finds '-' cs none (cs.dropWhile (· ≠ '\n'))
  | block (cs : List Char) : Finds '/' ('*' :: cs) none (afterComment cs)
  | literal {cs content rest : List Char} (h : closeQuote '\'' cs = some (content, rest)) :
      Finds '\'' cs (some (.literal content)) rest
  | quoted {c : Char} {cs content rest : List Char} (hc : c = '"' ∨ c = '\x60')
      (h : closeQuote c cs = some (content, rest)) : Finds c cs (some (.quoted content)) rest
  | bracket {content rest : List Char} :
      Finds '[' (content ++ ']' :: rest) (some (.quoted content)) rest
  | unfinished {c : Char} (cs : List Char) (hc : c = '\'' ∨ c = '"' ∨ c = '\x60' ∨ c = '[') :
      Finds c cs (some .unfinished) []
  | word {c : Char} (cs : List Char) (hc : isNameStart c = true) :
      Finds c cs (some (.word (c :: cs.takeWhile isNameRest))) (cs.dropWhile isNameRest)
  | number {c : Char} (cs : List Char) (hc : c.isDigit = true) :
      Finds c cs (some (.number (c :: cs.takeWhile isNumberRest))) (cs.dropWhile isNumberRest)
  | mark {c : Char} (cs : List Char) (hquote : ¬(c = '\'' ∨ c = '"' ∨ c = '\x60' ∨ c = '['))
      (hstart : isNameStart c = false) (hdigit : c.isDigit = false) :
      Finds c cs (some (.mark c)) cs

theorem finds_next (c : Char) (cs : List Char) : Finds c cs (next c cs).1 (next c cs).2 := by
  unfold next
  split
  · exact .separator cs ‹_›
  split
  · rename_i h
    obtain ⟨rfl, -⟩ := h
    exact .line cs
  split
  · rename_i h
    obtain ⟨rfl, hhead, -⟩ := h
    obtain ⟨cs, rfl⟩ := List.head?_eq_some_iff.1 hhead
    exact .block cs
  split
  · rename_i h
    subst h
    split
    · exact .literal ‹_›
    · exact .unfinished cs (.inl rfl)
  split
  · rename_i h
    split
    · exact .quoted h ‹_›
    · exact .unfinished cs (by tauto)
  split
  · rename_i h
    subst h
    split
    · rename_i d rest hrest
      have hd : d = ']' := by
        have := List.head?_dropWhile_not (fun c : Char ↦ decide (c ≠ ']')) cs
        rw [hrest] at this
        simpa using this
      have hcs := List.takeWhile_append_dropWhile (p := fun c : Char ↦ decide (c ≠ ']')) (l := cs)
      rw [hrest, hd] at hcs
      conv => arg 2; rw [← hcs]
      exact .bracket
    · exact .unfinished cs (by tauto)
  split
  · exact .word cs ‹_›
  split
  · exact .number cs ‹_›
  · exact .mark cs (by tauto) (Bool.not_eq_true _ ▸ ‹_›) (Bool.not_eq_true _ ▸ ‹_›)

theorem not_isNameStart_of_dropWhile {p : Char → Bool}
    (hp : ∀ c, isNameStart c = true → p c = true) {cs r : List Char} {d : Char}
    (h : cs.dropWhile p = d :: r) : isNameStart d = false := by
  have := List.head?_dropWhile_not p cs
  rw [h] at this
  by_contra hd
  simp [hp d (by simpa using hd)] at this

theorem isSeparator_cases {c : Char} (h : isSeparator c = true) :
    c = ' ' ∨ c = '\t' ∨ c = '\n' ∨ c = '\r' ∨ c = '\x0c' := by
  simp only [isSeparator, Bool.or_eq_true, beq_iff_eq] at h
  have hfeed (hc : c.toNat = 12) : c = '\x0c' := by
    rw [← Char.ofNat_toNat c, hc]
  tauto

theorem not_isWord_of_isSeparator {c : Char} (h : isSeparator c = true) :
    Text.isWord c = false := by
  rcases isSeparator_cases h with rfl | rfl | rfl | rfl | rfl <;> decide

theorem not_isWord_of_mark {c : Char} (hstart : isNameStart c = false)
    (hdigit : c.isDigit = false) : Text.isWord c = false := by
  by_contra hword
  have hrest := isNameRest_of_isWord (by simpa using hword)
  simp only [isNameStart, Bool.or_eq_false_iff] at hstart
  simp only [Text.isWord, Char.isAlphanum, hstart, hdigit, Bool.or_false] at hword
  split at hword
  · simp at hword
  · rename_i hc
    exact hc (by simpa using hstart.2)

/-- What is found where no comment, literal or quoted name begins. -/
def bare (c : Char) (cs : List Char) : Option Token × List Char :=
  if isNameStart c then (some (.word (c :: cs.takeWhile isNameRest)), cs.dropWhile isNameRest)
  else if c.isDigit then
    (some (.number (c :: cs.takeWhile isNumberRest)), cs.dropWhile isNumberRest)
  else (some (.mark c), cs)

theorem next_eq_bare {c : Char} {cs : List Char} (hsep : ¬isSeparator c = true)
    (hline : ¬(c = '-' ∧ cs.head? = some '-')) (hblock : ¬(c = '/' ∧ cs.head? = some '*'))
    (hc : c ∉ ['\'', '"', '\x60', '[']) : next c cs = bare c cs := by
  simp only [List.mem_cons, List.not_mem_nil, not_or, not_false_eq_true, and_true] at hc
  obtain ⟨hsingle, hdouble, hback, hbracket⟩ := hc
  have hlong : ¬(c = '/' ∧ cs.head? = some '*' ∧ 1 < cs.length) := fun h ↦ hblock ⟨h.1, h.2.1⟩
  rw [next, if_neg hsep, if_neg hline, if_neg hlong, if_neg hsingle,
    if_neg (not_or.2 ⟨hdouble, hback⟩), if_neg hbracket, bare]

/-- A character of a sort to which no separator belongs, and none that begins a comment, a literal or
a quoted name. -/
theorem next_of_sort {p : Char → Bool} {c : Char} (hc : p c = true)
    (hp : [' ', '\t', '\n', '\r', '\x0c', '-', '/', '\'', '"', '\x60', '['].any p = false)
    (cs : List Char) : next c cs = bare c cs := by
  have hno : c ∉ [' ', '\t', '\n', '\r', '\x0c', '-', '/', '\'', '"', '\x60', '['] :=
    fun hmem ↦ List.any_eq_false.1 hp c hmem hc
  apply next_eq_bare
  · intro hsep
    apply hno
    rcases isSeparator_cases hsep with rfl | rfl | rfl | rfl | rfl <;> simp
  · rintro ⟨rfl, -⟩
    exact hno (by simp)
  · rintro ⟨rfl, -⟩
    exact hno (by simp)
  · intro hmem
    apply hno
    simp only [List.mem_cons] at hmem ⊢
    tauto

theorem next_of_isNameStart {c : Char} (hc : isNameStart c = true) (cs : List Char) :
    next c cs = (some (.word (c :: cs.takeWhile isNameRest)), cs.dropWhile isNameRest) := by
  rw [next_of_sort hc rfl, bare, if_pos hc]

/-- The text is what is taken off its front and the rest. Where a name begins in the rest, no
character of a word is taken off last. -/
theorem Finds.exists_spelling {c : Char} {cs rest : List Char} {t : Option Token}
    (h : Finds c cs t rest) :
    ∃ mid, cs = mid ++ rest ∧ ∀ d r, rest = d :: r → isNameStart d = true →
      ∀ x, (c :: mid).getLast? = some x → Text.isWord x = false := by
  have hlast {c q : Char} (mid : List Char) (hq : Text.isWord q = false) :
      ∀ x, (c :: (mid ++ [q])).getLast? = some x → Text.isWord x = false := by
    intro x hx
    rw [← List.cons_append, List.getLast?_concat, Option.some.injEq] at hx
    exact hx ▸ hq
  have hdrop {p : Char → Bool} (hp : ∀ c, isNameStart c = true → p c = true)
      {cs r : List Char} {d : Char} (h : cs.dropWhile p = d :: r) (hd : isNameStart d = true) :
      False := by
    simp [not_isNameStart_of_dropWhile hp h] at hd
  cases h with
  | separator cs hc =>
    refine ⟨[], rfl, fun d r _ _ x hx ↦ ?_⟩
    obtain rfl : c = x := by simpa using hx
    exact not_isWord_of_isSeparator hc
  | line cs =>
    refine ⟨_, (List.takeWhile_append_dropWhile (p := fun c : Char ↦ decide (c ≠ '\n'))).symm,
      fun d r hrest hd ↦ (hdrop (fun c hc ↦ ?_) hrest hd).elim⟩
    have : c ≠ '\n' := by
      rintro rfl
      exact absurd hc (by decide)
    simpa using this
  | block cs =>
    obtain ⟨mid, hmid, hend⟩ := afterComment_spelling cs
    refine ⟨'*' :: mid, by rw [List.cons_append, ← hmid], fun d r hrest _ x hx ↦ ?_⟩
    rw [List.getLast?_cons, List.getLast?_cons, hend (by simp [hrest]), Option.getD_some,
      Option.getD_some, Option.some.injEq] at hx
    subst hx
    decide
  | literal h =>
    obtain ⟨mid, rfl, -⟩ := closeQuote_spelling h
    exact ⟨mid ++ ['\''], by simp, fun _ _ _ _ ↦ hlast mid (by decide)⟩
  | quoted hc h =>
    obtain ⟨mid, rfl, -⟩ := closeQuote_spelling h
    refine ⟨mid ++ [c], by simp, fun _ _ _ _ ↦ hlast mid ?_⟩
    rcases hc with rfl | rfl <;> decide
  | bracket =>
    rename_i content
    exact ⟨content ++ [']'], by simp, fun _ _ _ _ ↦ hlast content (by decide)⟩
  | unfinished cs => exact ⟨cs, by simp, fun d r hrest ↦ by simp at hrest⟩
  | word cs =>
    exact ⟨_, List.takeWhile_append_dropWhile.symm, fun d r hrest hd ↦
      (hdrop (fun _ ↦ isNameRest_of_isNameStart) hrest hd).elim⟩
  | number cs =>
    refine ⟨_, List.takeWhile_append_dropWhile.symm, fun d r hrest hd ↦
      (hdrop (fun c hc ↦ ?_) hrest hd).elim⟩
    simp [isNumberRest, isNameRest_of_isNameStart hc]
  | mark cs _ hstart hdigit =>
    refine ⟨[], rfl, fun d r _ _ x hx ↦ ?_⟩
    obtain rfl : c = x := by simpa using hx
    exact not_isWord_of_mark hstart hdigit

end Token

/-- The lexer comes to a place of a text, given by what follows it. -/
inductive Comes (q : List Char) : List Char → Prop
  | start : Comes q q
  | next {c : Char} {cs : List Char} : Comes q (c :: cs) → Comes q (Token.next c cs).2

namespace Comes

variable {q s : List Char}

theorem of_next {c : Char} {cs : List Char} (h : Comes (Token.next c cs).2 s) :
    Comes (c :: cs) s := by
  induction h with
  | start => exact .next .start
  | next _ ih => exact .next ih

/-- What comes before a place where a name begins does not end in a character of a word. -/
theorem exists_before (h : Comes q s) :
    ∃ before, q = before ++ s ∧ ∀ d r, s = d :: r → Token.isNameStart d = true →
      ∀ x, before.getLast? = some x → Text.isWord x = false := by
  induction h with
  | start => exact ⟨[], rfl, fun _ _ _ _ x hx ↦ by simp at hx⟩
  | @next c cs _ ih =>
    obtain ⟨before, hq, -⟩ := ih
    obtain ⟨mid, hmid, hend⟩ := (Token.finds_next c cs).exists_spelling
    refine ⟨before ++ (c :: mid), ?_, fun d r hs hd x hx ↦ hend d r hs hd x ?_⟩
    · rw [List.append_assoc, List.cons_append, ← hmid, ← hq]
    · rwa [List.getLast?_append_of_ne_nil _ (by simp)] at hx

end Comes

namespace Token

theorem scan_cons (c : Char) (cs : List Char) :
    scan (c :: cs) = (next c cs).1.toList ++ scan (next c cs).2 := by
  rw [scan]

end Token

end Footfall.Sql
