import Parley.Octets

/-!
# `Parley/Wire/Varint.lean` — numbers of variable length

A number is written in groups of seven bits, the lowest group first, each group but the last with its
high bit set. A number below 2^64 takes ten bytes at most, and the reader accepts no more than it
takes: the tenth byte, if there is one, is 0 or 1. A number may be written with more groups than it
needs.

`read_write` is the fact that the other wire modules use: reading gives back the number that was
written, and leaves whatever follows.
-/

set_option autoImplicit false

namespace Parley.Wire.Varint

def write (n : Nat) : Octets :=
  if n < 128 then [UInt8.ofNat n] else UInt8.ofNat (n % 128 + 128) :: write (n / 128)
termination_by n
decreasing_by omega

/-- Reads a number of at most `room` groups, of which the last may be 0 or 1 only. -/
def readWithin : (room : Nat) → Octets → Option (Nat × Octets)
  | 0, _ => none
  | _ + 1, [] => none
  | room + 1, b :: rest =>
    if b.toNat < 128 then
      if room = 0 ∧ 1 < b.toNat then none else some (b.toNat, rest)
    else (readWithin room rest).map fun (n, rest) => (b.toNat - 128 + 128 * n, rest)

/-- Reads a number below 2^64. -/
def read (bytes : Octets) : Option (UInt64 × Octets) :=
  (readWithin 10 bytes).map fun (n, rest) => (UInt64.ofNat n, rest)

/-- A number with room for all its groups is read back. -/
theorem readWithin_write (room n : Nat) (rest : Octets) (h : n < 2 * Nat.pow 128 room) :
    readWithin (room + 1) (write n ++ rest) = some (n, rest) := by
  induction room generalizing n with
  | zero =>
    have hn : n < 2 := by simpa using h
    have hmod : n % 256 = n := Nat.mod_eq_of_lt (by omega)
    rw [write, if_pos (by omega)]
    simp [readWithin, hmod]
    omega
  | succ room ih =>
    rw [write]
    by_cases hn : n < 128
    · have hmod : n % 256 = n := Nat.mod_eq_of_lt (by omega)
      rw [if_pos hn]
      simp [readWithin, hmod, hn]
    · have hlt : n / 128 < 2 * Nat.pow 128 room := by
        have hpow : Nat.pow 128 (room + 1) = Nat.pow 128 room * 128 := rfl
        omega
      have hmod : (n % 128 + 128) % 256 = n % 128 + 128 := Nat.mod_eq_of_lt (by omega)
      have hb : (UInt8.ofNat (n % 128 + 128)).toNat = n % 128 + 128 := by
        simpa using hmod
      rw [if_neg hn, List.cons_append, readWithin, ih _ hlt, hb, if_neg (by omega)]
      simp only [Option.map_some, Option.some.injEq, Prod.mk.injEq, and_true]
      omega

theorem read_write (v : UInt64) (rest : Octets) :
    read (write v.toNat ++ rest) = some (v, rest) := by
  have h : v.toNat < 2 * Nat.pow 128 9 := by
    have := v.toNat_lt
    omega
  simp [read, readWithin_write 9 v.toNat rest h]

end Parley.Wire.Varint
