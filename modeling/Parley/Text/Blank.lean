/-!
# `Parley/Text/Blank.lean` — blank characters, and what is left without them

A character is **blank** when it has the property White_Space: twenty-five code points, of which
six lie in ASCII. Addresses may hold none of them, identifiers may not consist of them alone, and
the words of a session description are the stretches between them.
-/

set_option autoImplicit false

namespace Parley.Text

/-- The characters with the property White_Space. -/
def isBlank (c : Char) : Bool :=
  let n := c.toNat
  (0x09 ≤ n && n ≤ 0x0D) || n == 0x20 || n == 0x85 || n == 0xA0 || n == 0x1680
    || (0x2000 ≤ n && n ≤ 0x200A) || n == 0x2028 || n == 0x2029 || n == 0x202F
    || n == 0x205F || n == 0x3000

/-- Every character that the core library calls white space is blank. -/
theorem isBlank_of_isWhitespace {c : Char} (h : c.isWhitespace = true) : isBlank c = true := by
  simp only [Char.isWhitespace, Bool.or_eq_true, decide_eq_true_eq] at h
  rcases h with ((h | h) | h) | h <;> subst h <;> decide

/-- A text is blank when it holds nothing but blank characters, or nothing at all. -/
def allBlank (s : String) : Bool := s.toList.all isBlank

/-- A text without the blank characters at its two ends. -/
def trim (cs : List Char) : List Char :=
  ((cs.dropWhile isBlank).reverse.dropWhile isBlank).reverse

/-- The words of a text: its longest stretches without a blank character, in order. -/
def words (cs : List Char) : List (List Char) :=
  (cs.splitOnP isBlank).filter fun w => !w.isEmpty

end Parley.Text
