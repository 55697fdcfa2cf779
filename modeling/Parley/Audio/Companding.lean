/-!
# `Parley/Audio/Companding.lean` — eight-bit samples on a logarithmic scale

G.711 keeps a sample in one byte: a sign, a segment of the scale and a step within the segment. The
μ law inverts all bits of the byte, the A law every second one. Each segment is twice as coarse as
the one below it.
-/

set_option autoImplicit false

namespace Parley.Audio

/-! ## The μ law -/

/-- What is added to a magnitude so that every segment begins at a power of two. -/
def muBias : Nat := 132

/-- The largest magnitude that the μ law can tell apart. -/
def muClip : Nat := 32635

def muEncode (s : Int16) : UInt8 :=
  let magnitude := min s.toInt.natAbs muClip + muBias
  let segment := (magnitude / 0x80).log2
  let step := magnitude / Nat.pow 2 (segment + 3) % 16
  let sign := if s.toInt < 0 then 128 else 0
  UInt8.ofNat (255 - (sign + segment * 16 + step))

def muDecode (b : UInt8) : Int16 :=
  let code := 255 - b.toNat
  let magnitude : Int := (code % 16 * 8 + muBias) * Nat.pow 2 (code / 16 % 8) - muBias
  Int16.ofInt (if 128 ≤ code then -magnitude else magnitude)

/-! ## The A law -/

/-- The largest thirteen-bit magnitude of each segment of the A-law scale. -/
def aSegmentEnds : List Nat := [0x1F, 0x3F, 0x7F, 0xFF, 0x1FF, 0x3FF, 0x7FF, 0xFFF]

def aEncode (s : Int16) : UInt8 :=
  let coarse := s.toInt / 8
  let magnitude := if 0 ≤ coarse then coarse.toNat else (-coarse - 1).toNat
  let mask : UInt8 := if 0 ≤ coarse then 0xD5 else 0x55
  match aSegmentEnds.findIdx? (magnitude ≤ ·) with
  | none => 0x7F ^^^ mask
  | some segment =>
    let shift := if segment < 2 then 1 else segment
    UInt8.ofNat (segment * 16 + magnitude / Nat.pow 2 shift % 16) ^^^ mask

def aDecode (b : UInt8) : Int16 :=
  let code := (b ^^^ 0x55).toNat
  let step := code % 16
  let segment := code / 16 % 8
  let magnitude : Int :=
    if segment = 0 then step * 16 + 8 else (step * 16 + 0x108) * Nat.pow 2 (segment - 1)
  Int16.ofInt (if 128 ≤ code then magnitude else -magnitude)

end Parley.Audio
