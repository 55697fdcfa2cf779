import Parley.Wire.Entry

/-!
# `Parley/Wire/Schema.lean` — messages by their fields

A **format** says how the values of one type travel as payloads. A **field** ties a number and a name
to a place in a message and says how often a value stands there. A **schema** is the list of fields
of a message, in increasing order of their numbers, and is all that writing and reading need:

* writing goes through the fields and writes what each of them holds;
* reading goes through the fields and gives to each the payloads that came under its number, in
  order. What came under other numbers is ignored. Of single values the last one counts, unless they
  are messages, whose entries are taken together; repeated values are appended.

What a schema says can also be had as plain data (`Schema.outline`), for showing messages whose types
are not at hand.
-/

set_option autoImplicit false

namespace Parley.Wire

/-- How often a value stands in its place. -/
inductive Occurrence where
  | required
  | optional
  | repeated
  deriving DecidableEq

/-- What stands in a place. Of a message it is said for each of its fields, with their numbers and
names. -/
inductive Kind where
  | uint32
  | uint64
  | int64
  | enumeration
  | bool
  | octets
  | text
  | message (fields : List (Nat × String × Occurrence × Kind))

/-- How the values of a type travel. -/
structure Format (α : Type) where
  kind : Kind
  /-- The value that reading starts from where none was read before. -/
  blank : α
  write : α → Payload
  /-- Reads payloads on top of a value, one after the other, with so many levels of messages left to
  enter. -/
  read : (depth : Nat) → α → List Payload → Option α

namespace Format

/-- Reads payloads that replace each other. All must be readable; the last one counts. -/
def readLast {α : Type} (read : Payload → Option α) (value : α) (ps : List Payload) : Option α :=
  ps.foldlM (fun _ p => read p) value

def uint32 : Format UInt32 where
  kind := .uint32
  blank := 0
  write v := .varint v.toUInt64
  read _ := readLast fun
    | .varint v => some v.toUInt32
    | _ => none

def uint64 : Format UInt64 where
  kind := .uint64
  blank := 0
  write v := .varint v
  read _ := readLast fun
    | .varint v => some v
    | _ => none

def int64 : Format Int64 where
  kind := .int64
  blank := 0
  write v := .varint v.toUInt64
  read _ := readLast fun
    | .varint v => some v.toInt64
    | _ => none

/-- The number of an enumeration's value, known or not. -/
def enumeration : Format Int32 where
  kind := .enumeration
  blank := 0
  write v := .varint v.toInt64.toUInt64
  read _ := readLast fun
    | .varint v => some v.toInt64.toInt32
    | _ => none

def bool : Format Bool where
  kind := .bool
  blank := false
  write v := .varint (if v then 1 else 0)
  read _ := readLast fun
    | .varint v => some (v != 0)
    | _ => none

def octets : Format Octets where
  kind := .octets
  blank := []
  write v := .bytes v
  read _ := readLast Payload.bytes?

def text : Format String where
  kind := .text
  blank := ""
  write v := .bytes v.toUTF8.data.toList
  read _ := readLast fun p => p.bytes?.bind fun v => String.fromUTF8? ⟨v.toArray⟩

end Format

/-- One field of a message. -/
structure Field (M : Type) where
  number : Nat
  name : String
  occurrence : Occurrence
  kind : Kind
  /-- The payloads that the field holds. -/
  write : M → List Payload
  /-- Puts the payloads that came under the field's number in their place. -/
  read : (depth : Nat) → M → List Payload → Option M

namespace Field

/-- A field that always holds one value. -/
def required {M α : Type} (number : Nat) (name : String) (format : Format α) (get : M → α)
    (set : M → α → M) : Field M where
  number
  name
  occurrence := .required
  kind := format.kind
  write m := [format.write (get m)]
  read depth m ps := (format.read depth (get m) ps).map (set m)

/-- A field that holds one value or none. -/
def optional {M α : Type} (number : Nat) (name : String) (format : Format α) (get : M → Option α)
    (set : M → Option α → M) : Field M where
  number
  name
  occurrence := .optional
  kind := format.kind
  write m := (get m).toList.map format.write
  read depth m ps :=
    if ps.isEmpty then some m
    else (format.read depth ((get m).getD format.blank) ps).map fun v => set m (some v)

/-- A field that holds any number of values. -/
def repeated {M α : Type} (number : Nat) (name : String) (format : Format α) (get : M → List α)
    (set : M → List α → M) : Field M where
  number
  name
  occurrence := .repeated
  kind := format.kind
  write m := (get m).map format.write
  read depth m ps :=
    (ps.mapM fun p => format.read depth format.blank [p]).map fun vs => set m (get m ++ vs)

/-- Reads numbers until no byte is left. -/
def readPacked : (rounds : Nat) → Octets → Option (List UInt32)
  | _, [] => some []
  | 0, _ :: _ => none
  | rounds + 1, b :: bytes => do
    let (v, rest) ← Varint.read (b :: bytes)
    let vs ← readPacked rounds rest
    return v.toUInt32 :: vs

/-- The numbers of one payload. -/
def readNumbers : Payload → Option (List UInt32)
  | .varint v => some [v.toUInt32]
  | .bytes v => readPacked v.length v
  | .skipped => none

/-- A field that holds any number of numbers, each in an entry of its own or many packed into one. -/
def numbers {M : Type} (number : Nat) (name : String) (get : M → List UInt32)
    (set : M → List UInt32 → M) : Field M where
  number
  name
  occurrence := .repeated
  kind := .uint32
  write m := (get m).map Format.uint32.write
  read _ m ps := (ps.mapM readNumbers).map fun vs => set m (get m ++ vs.flatten)

end Field

/-- The fields of a message, in increasing order of their numbers. -/
abbrev Schema (M : Type) := List (Field M)

namespace Schema

/-- What a schema says, as plain data. -/
def outline {M : Type} (s : Schema M) : List (Nat × String × Occurrence × Kind) :=
  s.map fun f => (f.number, f.name, f.occurrence, f.kind)

def entries {M : Type} (s : Schema M) (m : M) : List Entry :=
  s.flatMap fun f => (f.write m).map fun p => { number := f.number, payload := p }

def encode {M : Type} (s : Schema M) (m : M) : Octets := (s.entries m).flatMap Entry.write

/-- Puts entries in their places in a message. -/
def place {M : Type} (s : Schema M) (depth : Nat) (m : M) (entries : List Entry) : Option M :=
  s.foldlM (fun m f => f.read depth m (Entry.payloads f.number entries)) m

/-- Reads a message, which may come in several parts, on top of another. -/
def read {M : Type} (s : Schema M) (depth : Nat) (m : M) (parts : List Octets) : Option M := do
  let entries ← parts.mapM (Entry.readAll depth)
  s.place depth m entries.flatten

end Schema

/-- Messages as the values of a field. Each level of messages uses up one of those left. -/
def Format.message {M : Type} (blank : M) (s : Schema M) : Format M where
  kind := .message s.outline
  blank
  write m := .bytes (s.encode m)
  read depth m ps := match depth, ps with
    | _, [] => some m
    | 0, _ => none
    | depth + 1, ps => do s.read depth m (← ps.mapM Payload.bytes?)

end Parley.Wire
