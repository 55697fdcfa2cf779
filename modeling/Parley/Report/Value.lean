import Parley.Octets

/-!
# `Parley/Report/Value.lean` — reports as trees of named values

What happens in a session is reported to people and to other programs. A report is a tree of values
with names, in no particular notation: how numbers, bytes and missing values are spelled is up to
whoever writes it down.
-/

set_option autoImplicit false

namespace Parley.Report

/-- One value of a report. -/
inductive Value where
  /-- Nothing is known. -/
  | missing
  | flag (b : Bool)
  | number (n : Int)
  /-- A number that may need more than 53 binary digits. -/
  | wide (n : Int)
  | text (s : String)
  | octets (bs : Octets)
  /-- A level in single precision. -/
  | level (q : Rat)
  | list (vs : List Value)
  | record (fields : List (String × Value))

def Value.word (n : UInt32) : Value := .number n.toNat

/-- A value that may be missing. -/
def Value.ofOption {α : Type} (report : α → Value) : Option α → Value
  | some a => report a
  | none => .missing

def Value.ofList {α : Type} (report : α → Value) (xs : List α) : Value := .list (xs.map report)

end Parley.Report
