/-!
# `Parley/Text/Numeral.lean` — decimal numerals of a bounded size

Numbers arrive as decimal text and must fit a word. A numeral is one or more ASCII digits, with at
most one plus sign before them; anything else is no numeral, and a numeral of a number that does
not fit its word is refused rather than cut.
-/

set_option autoImplicit false

namespace Parley.Text

/-- The number that a numeral below `bound` stands for. -/
def readBelow (bound : Nat) (cs : List Char) : Option Nat :=
  let digits := match cs with
    | '+' :: rest => rest
    | _ => cs
  if !digits.isEmpty && digits.all Char.isDigit then
    let n := Nat.ofDigitChars 10 digits 0
    if n < bound then some n else none
  else none

/-- A numeral of a number up to 255. -/
def readByte (cs : List Char) : Option UInt8 := (readBelow UInt8.size cs).map UInt8.ofNat

/-- A numeral of a number below 2^32. -/
def readWord (cs : List Char) : Option UInt32 := (readBelow UInt32.size cs).map UInt32.ofNat

/-- The digits of a number in base sixteen, in lower case and without leading zeros. -/
def hex (n : Nat) : String := String.ofList (Nat.toDigits 16 n)

/-- The digits of a byte in base sixteen, always two of them. -/
def hexByte (b : UInt8) : String :=
  if b < 16 then "0" ++ hex b.toNat else hex b.toNat

end Parley.Text
