import Parley.Audio.Frame

/-!
# `Parley/Rtp/Packet.lean` — packets of the real-time transport protocol

A packet is laid out as a fixed header of twelve bytes, a list of contributing sources, an extension
if the header announces one, the payload, and padding if the header announces it, whose last byte
counts it. Writing produces neither extension nor padding; reading skips both.

The reader takes the parts off one after the other, and `Malformed` says which part was the first
that did not fit.
-/

set_option autoImplicit false

namespace Parley.Rtp

inductive Malformed where
  | shortHeader
  | version
  | sources
  | extensionHeader
  | extension
  | padding
  deriving DecidableEq

def Malformed.message : Malformed → String
  | .shortHeader => "shorter than fixed header"
  | .version => "unsupported rtp version"
  | .sources => "truncated csrc list"
  | .extensionHeader => "truncated extension header"
  | .extension => "truncated extension"
  | .padding => "invalid padding"

/-- A packet without what reading skips. -/
structure Packet where
  marker : Bool := false
  payloadType : UInt8
  sequence : UInt16
  timestamp : UInt32
  ssrc : UInt32
  csrc : List UInt32 := []
  payload : Octets
  deriving DecidableEq

namespace Packet

/-! ## Writing -/

/-- The number of bytes before the payload. -/
def headerSize (p : Packet) : Nat := 12 + p.csrc.length * 4

/-- The first byte of a packet: version 2, no padding, no extension, the number of sources in its
four low bits. -/
def firstByte (p : Packet) : UInt8 := UInt8.ofNat (128 + p.csrc.length % 16)

/-- The second byte of a packet: the marker above the payload type. -/
def secondByte (p : Packet) : UInt8 :=
  UInt8.ofNat ((if p.marker then 128 else 0) + p.payloadType.toNat % 128)

def encode (p : Packet) : Octets :=
  [p.firstByte, p.secondByte] ++ Octets.be16 p.sequence ++ Octets.be32 p.timestamp
    ++ Octets.be32 p.ssrc ++ p.csrc.flatMap Octets.be32 ++ p.payload

/-! ## Reading -/

/-- Takes a list of so many words off. -/
def takeWords : Nat → Octets → Option (List UInt32 × Octets)
  | 0, bytes => some ([], bytes)
  | n + 1, a :: b :: c :: d :: bytes =>
    (takeWords n bytes).map fun (words, rest) => (Octets.readBe32 a b c d :: words, rest)
  | _ + 1, _ => none

/-- Takes an extension off: two bytes of a profile, a length in words, and that many words. -/
def dropExtension : Octets → Except Malformed Octets
  | _ :: _ :: a :: b :: rest =>
    let length := (Octets.readBe16 a b).toNat * 4
    if rest.length < length then .error .extension else .ok (rest.drop length)
  | _ => .error .extensionHeader

/-- Takes padding off, whose length its last byte gives; that length counts the byte itself. -/
def dropPadding (bytes : Octets) : Except Malformed Octets :=
  match bytes.getLast? with
  | none => .error .padding
  | some last =>
    if last.toNat = 0 ∨ bytes.length < last.toNat then .error .padding
    else .ok (bytes.take (bytes.length - last.toNat))

def decode (bytes : Octets) : Except Malformed Packet :=
  match bytes with
  | b0 :: b1 :: s0 :: s1 :: t0 :: t1 :: t2 :: t3 :: r0 :: r1 :: r2 :: r3 :: rest => do
    if b0.toNat / 64 ≠ 2 then throw .version
    let (csrc, rest) ← match takeWords (b0.toNat % 16) rest with
      | some taken => pure taken
      | none => throw .sources
    let rest ← if b0.toNat / 16 % 2 = 1 then dropExtension rest else pure rest
    let payload ← if b0.toNat / 32 % 2 = 1 then dropPadding rest else pure rest
    return {
      marker := b1.toNat / 128 = 1
      payloadType := UInt8.ofNat (b1.toNat % 128)
      sequence := Octets.readBe16 s0 s1
      timestamp := Octets.readBe32 t0 t1 t2 t3
      ssrc := Octets.readBe32 r0 r1 r2 r3
      csrc
      payload }
  | _ => .error .shortHeader

/-! ## Frames -/

def ofFrame (f : Frame) : Packet :=
  { payloadType := f.codec.payloadType
    sequence := f.sequence
    timestamp := f.timestamp
    ssrc := f.ssrc
    payload := f.payload }

/-- The frame that a packet carries, if its payload type is one of a known codec. -/
def toFrame? (p : Packet) : Option Frame :=
  (Codec.ofPayloadType? p.payloadType).map fun codec =>
    { sequence := p.sequence
      timestamp := p.timestamp
      ssrc := p.ssrc
      codec
      payload := p.payload }

theorem toFrame?_ofFrame (f : Frame) : (ofFrame f).toFrame? = some f := by
  simp [ofFrame, toFrame?, Codec.ofPayloadType?_payloadType]

end Packet

end Parley.Rtp
