import Parley.Session.CommandLine

/-!
# `Parley/Main.lean` — the program

Prints what a run shows. There is no network behind it: every dial is refused.
-/

set_option autoImplicit false

def main (arguments : List String) : IO UInt32 := do
  let outcome := Parley.CommandLine.run arguments
  IO.print outcome.output
  unless outcome.complaint.isEmpty do IO.eprintln outcome.complaint
  return UInt32.ofNat outcome.code
