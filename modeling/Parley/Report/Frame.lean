import Parley.Report.Value
import Parley.Wire.Envelope

/-!
# `Parley/Report/Frame.lean` — signal frames as records

A frame is reported by its schema: each field by its name, an optional one only if it is there, and a
repeated one as a list in any case.
-/

set_option autoImplicit false

namespace Parley.Report

open Parley.Wire

/-- The value of a payload that is no message. -/
def ofPayload (kind : Kind) (p : Payload) : Value :=
  match kind, p with
  | .uint32, .varint v => .word v.toUInt32
  | .uint64, .varint v => .wide v.toNat
  | .int64, .varint v => .wide v.toInt64.toInt
  | .enumeration, .varint v => .number v.toInt64.toInt32.toInt
  | .bool, .varint v => .flag (v != 0)
  | .octets, .bytes v => .octets v
  | .text, .bytes v => .text ((String.fromUTF8? ⟨v.toArray⟩).getD "")
  | _, _ => .missing

/-- The record of a message, given as its entries, with so many levels of messages left to enter. -/
def ofMessage : (depth : Nat) → (fields : List (Nat × String × Occurrence × Kind)) →
    (entries : List Entry) → Value
  | 0, _, _ => .missing
  | depth + 1, fields, entries =>
    .record (fields.filterMap fun (number, name, occurrence, kind) =>
      let values := (Entry.payloads number entries).map fun p =>
        match kind, p with
        | .message inner, .bytes v => ofMessage depth inner ((Entry.readAll depth v).getD [])
        | _, p => ofPayload kind p
      match occurrence with
      | .repeated => some (name, .list values)
      | _ => values.head?.map fun v => (name, v))

def ofFrame (f : SignalFrame) : Value :=
  ofMessage Envelope.maxDepth SignalFrame.schema.outline (SignalFrame.schema.entries f)

end Parley.Report
