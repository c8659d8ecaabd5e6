import Footfall.Text.Ranges

/-!
White space, blank characters and their removal at the ends of a text.
-/

namespace Footfall.Text

def spaceRanges : List (Nat × Nat) := [
  (9, 13), (32, 32), (133, 133), (160, 160), (5760, 5760), (8192, 8202), (8232, 8233),
  (8239, 8239), (8287, 8287), (12288, 12288)]

def isSpace (c : Char) : Bool := inRanges spaceRanges c.toNat

/-- A blank: white space or one of the four information separators below the space. -/
def isBlank (c : Char) : Bool := isSpace c || decide (28 ≤ c.toNat ∧ c.toNat ≤ 31)

theorem isBlank_of_isWhitespace {c : Char} (h : c.isWhitespace) : isBlank c := by
  simp only [Char.isWhitespace, Bool.or_eq_true, decide_eq_true_eq] at h
  rcases h with ((h | h) | h) | h <;> subst h <;> decide

/-- The characters without those of the class at the two ends. -/
def trimBy (p : Char → Bool) (cs : List Char) : List Char :=
  ((cs.dropWhile p).reverse.dropWhile p).reverse

def strip (s : String) : String := String.ofList (trimBy isBlank s.toList)

def isBlankText (s : String) : Bool := s.toList.all isBlank

end Footfall.Text
