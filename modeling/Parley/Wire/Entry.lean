import Parley.Wire.Varint

/-!
# `Parley/Wire/Entry.lean` — a message as a list of numbered entries

A message on the wire is a sequence of entries. Each begins with a key, a field number and one of six
wire types, and continues with a payload in the form of that type. Two of the types open and close a
group, a form that no field of ours has: a group is read past, with everything in it, and so are
fixed-size payloads.

Reading descends at most so deep into groups within groups; the `depth` that is left is the number
of levels that may still be entered.
-/

set_option autoImplicit false

namespace Parley.Wire

/-- The form of a payload. -/
inductive WireType where
  | varint
  | fixed64
  | bytes
  | openGroup
  | closeGroup
  | fixed32
  deriving DecidableEq

namespace WireType

def number : WireType → Nat
  | .varint => 0
  | .fixed64 => 1
  | .bytes => 2
  | .openGroup => 3
  | .closeGroup => 4
  | .fixed32 => 5

def ofNumber? : Nat → Option WireType
  | 0 => some .varint
  | 1 => some .fixed64
  | 2 => some .bytes
  | 3 => some .openGroup
  | 4 => some .closeGroup
  | 5 => some .fixed32
  | _ => none

theorem ofNumber?_number (w : WireType) : ofNumber? w.number = some w := by cases w <;> rfl

end WireType

/-- What an entry begins with. -/
structure Key where
  number : Nat
  wireType : WireType
  deriving DecidableEq

namespace Key

def write (k : Key) : Octets := Varint.write (k.number * 8 + k.wireType.number)

/-- Reads a key: a number below 2^32, whose three low bits are a wire type and whose other bits are
a field number other than zero. -/
def read (bytes : Octets) : Option (Key × Octets) := do
  let (v, rest) ← Varint.read bytes
  let n := v.toNat
  if 0x100000000 ≤ n ∨ n / 8 = 0 then none
  let wireType ← WireType.ofNumber? (n % 8)
  return ({ number := n / 8, wireType }, rest)

theorem read_write (k : Key) (rest : Octets) (hpos : 0 < k.number) (hlt : k.number < 0x20000000) :
    read (k.write ++ rest) = some (k, rest) := by
  obtain ⟨number, wireType⟩ := k
  have hw : wireType.number < 8 := by cases wireType <;> decide
  simp only at hpos hlt
  have hn : number * 8 + wireType.number < 0x100000000 := by omega
  have hv : (UInt64.ofNat (number * 8 + wireType.number)).toNat
      = number * 8 + wireType.number := by
    simp only [UInt64.toNat_ofNat']
    omega
  have := Varint.read_write (UInt64.ofNat (number * 8 + wireType.number)) rest
  rw [hv] at this
  have hdiv : (number * 8 + wireType.number) / 8 = number := by omega
  have hmod : (number * 8 + wireType.number) % 8 = wireType.number := by omega
  simp only [read, write, this, Option.bind_eq_bind, Option.bind_some, hv, hdiv, hmod,
    WireType.ofNumber?_number]
  rw [if_neg (by omega)]
  rfl

end Key

/-- What follows a key, as far as it matters. -/
inductive Payload where
  | varint (value : UInt64)
  | bytes (value : Octets)
  /-- A payload that is only read past. -/
  | skipped
  deriving DecidableEq

/-- One entry of a message. -/
structure Entry where
  number : Nat
  payload : Payload
  deriving DecidableEq

/-- Takes off bytes that their number precedes. -/
def takeBytes (bytes : Octets) : Option (Octets × Octets) := do
  let (v, rest) ← Varint.read bytes
  Octets.splitExactly? v.toNat rest

/-- Reads on until the group of this number closes, with `skip` to read past one payload. Each round
reads a key at least and gives up one byte of `fuel`, so the bytes themselves are fuel enough. -/
def closeGroup (skip : Key → Octets → Option Octets) (number : Nat) :
    (fuel : Octets) → Octets → Option Octets
  | [], _ => none
  | _ :: fuel, bytes => do
    let (key, rest) ← Key.read bytes
    if key.wireType = .closeGroup then
      if key.number = number then some rest else none
    else closeGroup skip number fuel (← skip key rest)

/-- Reads past the payload of a key. -/
def skipPayload : (depth : Nat) → Key → Octets → Option Octets
  | 0, _, _ => none
  | depth + 1, key, bytes =>
    match key.wireType with
    | .varint => (Varint.read bytes).map (·.2)
    | .fixed64 => (Octets.splitExactly? 8 bytes).map (·.2)
    | .bytes => (takeBytes bytes).map (·.2)
    | .openGroup => closeGroup (skipPayload depth) key.number bytes bytes
    | .closeGroup => none
    | .fixed32 => (Octets.splitExactly? 4 bytes).map (·.2)

namespace Payload

/-- The bytes of a payload that consists of bytes. -/
def bytes? : Payload → Option Octets
  | .bytes v => some v
  | _ => none

/-- Reads the payload of a key. -/
def read (depth : Nat) (key : Key) (bytes : Octets) : Option (Payload × Octets) :=
  match key.wireType with
  | .varint => (Varint.read bytes).map fun (v, rest) => (.varint v, rest)
  | .bytes => (takeBytes bytes).map fun (v, rest) => (.bytes v, rest)
  | _ => (skipPayload depth key bytes).map fun rest => (.skipped, rest)

end Payload

namespace Entry

/-- The bytes of an entry; a skipped payload has none. -/
def write (e : Entry) : Octets :=
  match e.payload with
  | .varint v => Key.write ⟨e.number, .varint⟩ ++ Varint.write v.toNat
  | .bytes v => Key.write ⟨e.number, .bytes⟩ ++ Varint.write v.length ++ v
  | .skipped => []

def read (depth : Nat) (bytes : Octets) : Option (Entry × Octets) := do
  let (key, rest) ← Key.read bytes
  let (payload, rest) ← Payload.read depth key rest
  return ({ number := key.number, payload }, rest)

/-- Reads entries until no byte is left. Each takes a byte at least, so the number of bytes bounds
the number of rounds. -/
def readRounds (depth : Nat) : (rounds : Nat) → Octets → Option (List Entry)
  | _, [] => some []
  | 0, _ :: _ => none
  | rounds + 1, b :: bytes => do
    let (entry, rest) ← read depth (b :: bytes)
    let entries ← readRounds depth rounds rest
    return entry :: entries

/-- The entries that a message consists of. -/
def readAll (depth : Nat) (bytes : Octets) : Option (List Entry) :=
  readRounds depth bytes.length bytes

/-- The payloads that stand under a number. -/
def payloads (number : Nat) (entries : List Entry) : List Payload :=
  (entries.filter (·.number == number)).map (·.payload)

end Entry

end Parley.Wire
