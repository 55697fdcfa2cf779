import Parley.Audio.Codec
import Parley.Audio.Companding
import Parley.Octets

/-!
# `Parley/Audio/Payload.lean` — samples as the bytes of a codec

Encoding never fails. Decoding refuses an empty payload for every codec, and an odd number of bytes
for the codec whose samples take two.
-/

set_option autoImplicit false

namespace Parley.Audio

inductive PayloadError where
  | empty
  | oddLength (bytes : Nat)
  deriving DecidableEq

def PayloadError.message : PayloadError → String
  | .empty => "empty payload"
  | .oddLength bytes => "odd L16 payload length " ++ toString bytes

/-- The bytes of samples that are at the codec's clock rate already. -/
def encode : Codec → List Int16 → Octets
  | .pcmu, samples => samples.map muEncode
  | .pcma, samples => samples.map aEncode
  | .l16, samples => Octets.ofSamplesBe samples

def decode (codec : Codec) (payload : Octets) : Except PayloadError (List Int16) :=
  if payload.isEmpty then .error .empty
  else match codec with
    | .pcmu => .ok (payload.map muDecode)
    | .pcma => .ok (payload.map aDecode)
    | .l16 =>
      if payload.length % 2 = 0 then .ok (Octets.samplesBe payload)
      else .error (.oddLength payload.length)

/-- Linear samples come back as they were. -/
theorem decode_encode_l16 {samples : List Int16} (h : samples ≠ []) :
    decode .l16 (encode .l16 samples) = .ok samples := by
  have hsome : (Octets.ofSamplesBe samples).isEmpty = false := by
    cases samples with
    | nil => exact absurd rfl h
    | cons s rest => rfl
  have heven : (Octets.ofSamplesBe samples).length % 2 = 0 := by
    rw [Octets.length_ofSamplesBe]
    omega
  simp only [decode, encode, hsome, heven, Bool.false_eq_true, if_false, if_true,
    Octets.samplesBe_ofSamplesBe]

end Parley.Audio
