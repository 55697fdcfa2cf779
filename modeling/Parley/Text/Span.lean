/-!
# `Parley/Text/Span.lean` — lengths of time

A length of time is a whole number of nanoseconds. Its text uses the largest of `s`, `ms`, `µs` and
`ns` in which it is at least one, with the shortest decimal fraction that is exact: a second and a
half is `1.5s`, and no time at all is `0ns`.
-/

set_option autoImplicit false

namespace Parley

structure Span where
  nanos : Nat
  deriving DecidableEq

namespace Span

def ofMicros (n : Nat) : Span := ⟨n * 1000⟩

def ofMillis (n : Nat) : Span := ⟨n * 1000000⟩

def ofSeconds (n : Nat) : Span := ⟨n * 1000000000⟩

def millis (d : Span) : Nat := d.nanos / 1000000

/-- A span has at most 2^64 − 1 whole seconds. -/
def limit : Nat := 0x10000000000000000 * 1000000000

/-- The decimals of `n / 10 ^ places`, without the zeros at their end. -/
def decimals (places n : Nat) : List Char :=
  let digits := Nat.toDigits 10 n
  let padded := List.replicate (places - digits.length) '0' ++ digits
  (padded.reverse.dropWhile (· == '0')).reverse

/-- `n / 10 ^ places` as text, in as many decimals as it takes. -/
def fixedText (places n : Nat) : String :=
  let fraction := decimals places (n % Nat.pow 10 places)
  let whole := toString (n / Nat.pow 10 places)
  if fraction.isEmpty then whole else whole ++ "." ++ String.ofList fraction

/-- The text of a span, in its largest fitting unit. -/
def text (d : Span) : String :=
  if 1000000000 ≤ d.nanos then fixedText 9 d.nanos ++ "s"
  else if 1000000 ≤ d.nanos then fixedText 6 d.nanos ++ "ms"
  else if 1000 ≤ d.nanos then fixedText 3 d.nanos ++ "µs"
  else fixedText 0 d.nanos ++ "ns"

end Span

end Parley
