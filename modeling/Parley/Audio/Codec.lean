/-!
# `Parley/Audio/Codec.lean` — the codecs that the client speaks

Three codecs, each with the payload number, the encoding name and the clock rate that session
descriptions use for it. Audio travels in frames of twenty milliseconds.
-/

set_option autoImplicit false

namespace Parley

inductive Codec where
  /-- G.711 with the μ law, at 8 kHz. -/
  | pcmu
  /-- G.711 with the A law, at 8 kHz. -/
  | pcma
  /-- Sixteen-bit linear samples, at 16 kHz. -/
  | l16
  deriving DecidableEq

namespace Codec

def all : List Codec := [.pcmu, .pcma, .l16]

def payloadType : Codec → UInt8
  | .pcmu => 0
  | .pcma => 8
  | .l16 => 96

/-- Samples per second. -/
def clockRate : Codec → UInt32
  | .pcmu | .pcma => 8000
  | .l16 => 16000

def encodingName : Codec → String
  | .pcmu => "PCMU"
  | .pcma => "PCMA"
  | .l16 => "L16"

/-- The codec that a payload number stands for without further agreement. -/
def ofPayloadType? (n : UInt8) : Option Codec := all.find? (·.payloadType == n)

/-- Whether two texts agree but for the case of their ASCII letters. -/
def sameName (a b : String) : Bool := a.toList.map Char.toLower == b.toList.map Char.toLower

/-- The codec with this encoding name, in any case, and this clock rate. -/
def ofEncoding? (name : String) (rate : UInt32) : Option Codec :=
  all.find? fun c => sameName c.encodingName name && c.clockRate == rate

def frameMillis : Nat := 20

def samplesPerFrame (c : Codec) : Nat := c.clockRate.toNat * frameMillis / 1000

theorem samplesPerFrame_pos (c : Codec) : 0 < c.samplesPerFrame := by
  cases c <;> decide

theorem ofPayloadType?_payloadType (c : Codec) : ofPayloadType? c.payloadType = some c := by
  cases c <;> rfl

theorem ofPayloadType?_eq_some_iff {n : UInt8} {c : Codec} :
    ofPayloadType? n = some c ↔ c.payloadType = n := by
  constructor
  · intro h
    simpa using List.find?_some h
  · rintro rfl
    exact ofPayloadType?_payloadType c

end Codec

end Parley
