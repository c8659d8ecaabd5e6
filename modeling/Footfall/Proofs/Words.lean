import Footfall.Proofs.Guarding

/-!
Words that the guard looks for in a text that is put together of parts. A part is quiet if nothing
in it is such a word; quiet parts with a blank, a double quote or a parenthesis between them are
quiet together, since no word goes over these.
-/

namespace Footfall.Sql

open Text

/-- The characters between parts. -/
def marks : List Char := [' ', '"', '(', ')']

theorem mem_marks {c : Char} : c ∈ marks ↔ c = ' ' ∨ c = '"' ∨ c = '(' ∨ c = ')' := by
  simp [marks]

/-- A test that does not look over a mark, and for which a text starts anew after one. -/
structure Stops (q : Option Char → List Char → Bool) : Prop where
  stop : ∀ m ∈ marks, ∀ before a b, q before (a ++ m :: b) = true → q before a = true
  fresh : ∀ m ∈ marks, ∀ cs, q (some m) cs = q none cs

theorem eq_false_of_imp {b c : Bool} (h : b = true → c = true) (hc : c = false) : b = false := by
  cases b with
  | false => rfl
  | true => exact hc ▸ (h rfl).symm

theorem somewhere_eq_false {p q : Option Char → List Char → Bool}
    (hpq : ∀ before cs, p before cs = true → q before cs = true) {before : Option Char}
    {cs : List Char} (h : somewhere q before cs = false) : somewhere p before cs = false := by
  induction cs generalizing before with
  | nil => exact eq_false_of_imp (hpq _ _) h
  | cons c cs ih =>
    rw [somewhere, Bool.or_eq_false_iff] at h
    rw [somewhere, eq_false_of_imp (hpq _ _) h.1, ih h.2, Bool.or_false]

/-- A part in which one test fails can be left out for any other test that needs it. -/
theorem somewhere_skip {p q : Option Char → List Char → Bool} (hq : Stops q)
    (hpq : ∀ before cs, p before cs = true → q before cs = true) {m : Char} (hm : m ∈ marks)
    (hp : ∀ cs, p (some m) cs = p none cs) {a : List Char} {before : Option Char}
    (ha : somewhere q before a = false) (b : List Char) :
    somewhere p before (a ++ m :: b) = somewhere p none b := by
  -- what the test finds before the mark it would find without what follows the mark
  have hfails {before : Option Char} {a : List Char} (hno : q before a = false) :
      p before (a ++ m :: b) = false :=
    eq_false_of_imp (fun h ↦ hq.stop m hm before a b (hpq _ _ h)) hno
  induction a generalizing before with
  | nil =>
    have hrest : somewhere p (some m) b = somewhere p none b := by
      cases b <;> simp only [somewhere, hp]
    rw [List.nil_append, somewhere, ← List.nil_append (m :: b), hfails ha, Bool.false_or, hrest]
  | cons c a ih =>
    rw [somewhere, Bool.or_eq_false_iff] at ha
    rw [List.cons_append, somewhere, ← List.cons_append, hfails ha.1, Bool.false_or, ih ha.2]

/-- Whether a place is the start of a word that begins in some way. -/
def startsWord (word : List Char) (before : Option Char) (cs : List Char) : Bool :=
  isWordStart before && (afterWord word cs).isSome

def limitWord : List Char := "limit".toList

/-- The words that the guard looks for. -/
def soughtWords : List (List Char) := tableName :: limitWord :: writingWords

theorem lowerLetter_mark_notMem {m : Char} (hm : m ∈ marks) :
    ∀ word ∈ soughtWords, lowerLetter m ∉ word := by
  rcases mem_marks.1 hm with rfl | rfl | rfl | rfl <;> decide

theorem isWord_mark {m : Char} (hm : m ∈ marks) : isWord m = false := by
  rcases mem_marks.1 hm with rfl | rfl | rfl | rfl <;> decide

theorem afterWord_mark {m : Char} {word : List Char} (hm : lowerLetter m ∉ word)
    (a b : List Char) : afterWord word (a ++ m :: b) = (afterWord word a).map (· ++ m :: b) := by
  induction word generalizing a with
  | nil => rfl
  | cons w word ih =>
    rw [List.mem_cons, not_or] at hm
    cases a with
    | nil => simp [afterWord, hm.1]
    | cons c a =>
      rw [List.cons_append, afterWord, afterWord]
      split
      · exact ih hm.2 a
      · rfl

theorem isWordStart_mark {m : Char} (hm : m ∈ marks) : isWordStart (some m) = true := by
  simp [isWordStart, isWord_mark hm]

theorem stops_startsWord {word : List Char} (hword : word ∈ soughtWords) :
    Stops (startsWord word) := by
  constructor
  · intro m hm before a b h
    rw [startsWord, afterWord_mark (lowerLetter_mark_notMem hm word hword),
      Option.isSome_map] at h
    exact h
  · intro m hm cs
    rw [startsWord, startsWord, isWordStart_mark hm]
    rfl

theorem isWordEnd_mark {m : Char} (hm : m ∈ marks) (a b : List Char) :
    isWordEnd (a ++ m :: b) = isWordEnd a := by
  cases a with
  | nil => simp [isWordEnd, isWord_mark hm]
  | cons c a => rfl

theorem stops_isWordAt {word : List Char} (hword : word ∈ soughtWords) :
    Stops (isWordAt word) := by
  constructor
  · intro m hm before a b h
    rw [isWordAt, afterWord_mark (lowerLetter_mark_notMem hm word hword), Option.any_map] at h
    simpa only [isWordAt, Function.comp_def, isWordEnd_mark hm] using h
  · intro m hm cs
    rw [isWordAt, isWordAt, isWordStart_mark hm]
    rfl

/-- No word of a part begins as a given word does. -/
def Lacks (word a : List Char) : Prop := somewhere (startsWord word) none a = false

/-- A part in which no statement ends, nothing is qualified and no word writes or begins as the name
of the table does. -/
structure IsQuiet (a : List Char) : Prop where
  semicolon : ';' ∉ a
  dot : '.' ∉ a
  writes : ∀ word ∈ writingWords, hasWord word a = false
  names : Lacks tableName a

instance (word a : List Char) : Decidable (Lacks word a) := inferInstanceAs (Decidable (_ = _))

instance (a : List Char) : Decidable (IsQuiet a) :=
  decidable_of_iff (';' ∉ a ∧ '.' ∉ a ∧ (∀ word ∈ writingWords, hasWord word a = false) ∧
      Lacks tableName a)
    ⟨fun ⟨h₁, h₂, h₃, h₄⟩ ↦ ⟨h₁, h₂, h₃, h₄⟩, fun h ↦ ⟨h.1, h.2, h.3, h.4⟩⟩

theorem mem_soughtWords {word : List Char} (h : word ∈ writingWords) : word ∈ soughtWords :=
  List.mem_cons_of_mem _ (List.mem_cons_of_mem _ h)

theorem tableName_mem : tableName ∈ soughtWords := List.mem_cons_self ..

theorem limitWord_mem : limitWord ∈ soughtWords := List.mem_cons_of_mem _ (List.mem_cons_self ..)

theorem isWordAt_le {word : List Char} (before : Option Char) (cs : List Char)
    (h : isWordAt word before cs = true) : startsWord word before cs = true := by
  rw [isWordAt, Bool.and_eq_true, Option.any_eq_true] at h
  obtain ⟨hstart, rest, hrest, -⟩ := h
  rw [startsWord, hstart, hrest]
  rfl

section

variable {m : Char} {a b word : List Char}

theorem Lacks.mark (hword : word ∈ soughtWords) (hm : m ∈ marks) (ha : Lacks word a)
    (hb : Lacks word b) : Lacks word (a ++ m :: b) := by
  have hstops := stops_startsWord hword
  rw [Lacks, somewhere_skip hstops (fun _ _ h ↦ h) hm (hstops.fresh m hm) ha]
  exact hb

theorem hasWord_mark (hword : word ∈ soughtWords) (hm : m ∈ marks) (ha : hasWord word a = false) :
    hasWord word (a ++ m :: b) = hasWord word b := by
  have hstops := stops_isWordAt hword
  exact somewhere_skip hstops (fun _ _ h ↦ h) hm (hstops.fresh m hm) ha b

theorem IsQuiet.mark (hm : m ∈ marks) (ha : IsQuiet a) (hb : IsQuiet b) :
    IsQuiet (a ++ m :: b) := by
  obtain ⟨hsemicolon, hdot⟩ : ';' ≠ m ∧ '.' ≠ m := by
    rcases mem_marks.1 hm with rfl | rfl | rfl | rfl <;> decide
  constructor
  · simp [ha.semicolon, hb.semicolon, hsemicolon]
  · simp [ha.dot, hb.dot, hdot]
  · intro word hword
    rw [hasWord_mark (mem_soughtWords hword) hm (ha.writes word hword), hb.writes word hword]
  · exact ha.names.mark tableName_mem hm hb.names

end

theorem toNat_digit_lt {c : Char} (h : c.isDigit = true ∨ c = '-') : c.toNat < 65 := by
  rcases h with h | rfl
  · simp only [Char.isDigit, Bool.and_eq_true, decide_eq_true_eq] at h
    have : c.toNat ≤ 57 := h.2
    omega
  · decide

theorem lowerLetter_digit {c : Char} (h : c.isDigit = true ∨ c = '-') : lowerLetter c = c := by
  have hsmall := toNat_digit_lt h
  have hlower : c.toLower = c := by
    unfold Char.toLower
    rw [dif_neg]
    rintro ⟨hle, -⟩
    have : 65 ≤ c.toNat := hle
    omega
  rw [lowerLetter_eq (by rw [hlower]; omega), hlower]

theorem afterWord_digits {cs word : List Char} (h : ∀ c ∈ cs, c.isDigit = true ∨ c = '-')
    (hword : word ∈ soughtWords) : afterWord word cs = none := by
  have hletter : ∀ word ∈ soughtWords, word.head?.any (fun w ↦ 65 ≤ w.toNat) = true := by decide
  have hfirst := hletter word hword
  cases word with
  | nil => cases hfirst
  | cons w word =>
    cases cs with
    | nil => rfl
    | cons c cs =>
      have hc := h c (List.mem_cons_self ..)
      rw [afterWord, if_neg]
      rw [lowerLetter_digit hc]
      rintro rfl
      have hsmall := toNat_digit_lt hc
      rw [List.head?_cons, Option.any_some, decide_eq_true_eq] at hfirst
      omega

theorem lacks_of_digits {a word : List Char} (h : ∀ c ∈ a, c.isDigit = true ∨ c = '-')
    (hword : word ∈ soughtWords) : Lacks word a := by
  have hall {before : Option Char} {cs : List Char} (hcs : ∀ c ∈ cs, c.isDigit = true ∨ c = '-') :
      somewhere (startsWord word) before cs = false := by
    induction cs generalizing before with
    | nil =>
      rw [somewhere, startsWord, afterWord_digits hcs hword, Option.isSome_none, Bool.and_false]
    | cons c cs ih =>
      rw [somewhere, startsWord, afterWord_digits hcs hword, Option.isSome_none, Bool.and_false,
        Bool.false_or]
      exact ih fun d hd ↦ hcs d (List.mem_cons_of_mem _ hd)
  exact hall h

/-- A text of digits and signs has none of the words. -/
theorem IsQuiet.of_digits {a : List Char} (h : ∀ c ∈ a, c.isDigit = true ∨ c = '-') :
    IsQuiet a := by
  have hnot {c : Char} (hc : c.isDigit = false ∧ c ≠ '-') : c ∉ a := fun hmem ↦
    (h c hmem).elim (fun hd ↦ by simp [hc.1] at hd) hc.2
  refine ⟨hnot (by decide), hnot (by decide), fun word hword ↦ ?_, lacks_of_digits h tableName_mem⟩
  exact somewhere_eq_false isWordAt_le (lacks_of_digits h (mem_soughtWords hword))

end Footfall.Sql
