import Parley.Octets

/-!
# `Parley/Storage/Wave.lean` — audio files in the RIFF/WAVE format

A file of this format is a sequence of chunks, each with a name of four letters and a length. The
format chunk comes before the data chunk and says how the data is to be read; what other chunks hold
is of no interest. The header is read up to the data; the samples are read as they are needed, and
fewer of them may be there than the header promises.
-/

set_option autoImplicit false

namespace Parley

/-- How the samples of a file are written. -/
structure WaveFormat where
  channels : UInt16
  sampleRate : UInt32
  bitsPerSample : UInt16
  /-- The bytes that a sample takes, of which it may leave some unused. -/
  bytesPerSample : Nat
  /-- Whether a sample is a floating-point number. -/
  isFloat : Bool
  deriving DecidableEq

/-- A file whose header is read. -/
structure WaveFile where
  format : WaveFormat
  /-- The samples that the header promises and that were not asked for yet. -/
  promised : Nat
  /-- The bytes that are left. -/
  data : Octets
  deriving DecidableEq

namespace WaveFile

/-! ## The header -/

/-- Takes a 16-bit word off, lowest byte first. -/
def take16 : Octets → Option (UInt16 × Octets)
  | a :: b :: rest => some (Octets.readLe16 a b, rest)
  | _ => none

/-- Takes a 32-bit word off, lowest byte first. -/
def take32 : Octets → Option (UInt32 × Octets)
  | a :: b :: c :: d :: rest => some (Octets.readLe32 a b c d, rest)
  | _ => none

/-- Takes a name of four letters off. -/
def takeName : Octets → Option (Octets × Octets)
  | a :: b :: c :: d :: rest => some ([a, b, c, d], rest)
  | _ => none

/-- What is left after so many bytes, if there are so many. -/
def skip (n : Nat) (bytes : Octets) : Option Octets :=
  (Octets.splitExactly? n bytes).map (·.2)

def named (name : String) : Octets := name.toUTF8.data.toList

/-- The identifiers of the two sample formats that the extensible format chunk can name. -/
def subformat (isFloat : Bool) : Octets :=
  [if isFloat then 3 else 1, 0, 0, 0, 0, 0, 0x10, 0, 0x80, 0, 0, 0xAA, 0, 0x38, 0x9B, 0x71]

/-- Reads what a format chunk of linear samples says after its first sixteen bytes. -/
def linearRest (length : Nat) (format : WaveFormat) (bytes : Octets) :
    Option (WaveFormat × Octets) := do
  if length = 16 then return (format, bytes)
  if length ≠ 18 ∧ length ≠ 40 then none
  let bytes ← skip 2 bytes
  if !([8, 16, 24].contains format.bitsPerSample) then none
  let bytes ← if length = 40 then skip 22 bytes else some bytes
  return (format, bytes)

/-- Reads what a format chunk of floating-point samples says after its first sixteen bytes. -/
def floatRest (length : Nat) (format : WaveFormat) (bytes : Octets) :
    Option (WaveFormat × Octets) := do
  if length ≠ 16 ∧ length ≠ 18 then none
  let bytes ← if length = 18 then
      match take16 bytes with
      | some (0, rest) => some rest
      | _ => none
    else some bytes
  if format.bitsPerSample ≠ 32 then none
  return ({ format with isFloat := true }, bytes)

/-- Reads what an extensible format chunk says after its first sixteen bytes. -/
def extensibleRest (length : Nat) (format : WaveFormat) (bytes : Octets) :
    Option (WaveFormat × Octets) := do
  if length < 40 then none
  let (size, bytes) ← take16 bytes
  if size ≠ 22 then none
  let (bits, bytes) ← take16 bytes
  let bytes ← skip 4 bytes
  let (kind, bytes) ← Octets.splitExactly? 16 bytes
  let isFloat ← if kind = subformat false then some false
    else if kind = subformat true then some true else none
  let bitsPerSample := if bits = 0 then format.bitsPerSample else bits
  return ({ format with bitsPerSample, isFloat }, bytes)

/-- Reads a format chunk of the given length. -/
def readFormat (length : Nat) (bytes : Octets) : Option (WaveFormat × Octets) := do
  if length < 16 then none
  let (tag, bytes) ← take16 bytes
  let (channels, bytes) ← take16 bytes
  let (sampleRate, bytes) ← take32 bytes
  let (bytesPerSecond, bytes) ← take32 bytes
  let (blockAlign, bytes) ← take16 bytes
  let (bitsPerSample, bytes) ← take16 bytes
  if channels = 0 then none
  let bytesPerSample := blockAlign.toNat / channels.toNat
  if 0x10000 ≤ bytesPerSample * 8 ∨ bytesPerSample * 8 < bitsPerSample.toNat then none
  if bytesPerSecond.toNat ≠ blockAlign.toNat * sampleRate.toNat then none
  if bitsPerSample % 8 ≠ 0 ∨ bitsPerSample = 0 then none
  let format : WaveFormat :=
    { channels, sampleRate, bitsPerSample, bytesPerSample, isFloat := false }
  match tag.toNat with
  | 0x0001 => linearRest length format bytes
  | 0x0003 => floatRest length format bytes
  | 0xFFFE => extensibleRest length format bytes
  | _ => none

/-- Reads chunks up to the data chunk, with the format found so far. A chunk takes eight bytes at
least, so the number of bytes bounds the number of rounds. -/
def readChunks : (rounds : Nat) → Option WaveFormat → Octets → Option (WaveFormat × Nat × Octets)
  | 0, _, _ => none
  | rounds + 1, found, bytes => do
    let (name, bytes) ← takeName bytes
    let (length, bytes) ← take32 bytes
    if name = named "fmt " then
      let (format, bytes) ← readFormat length.toNat bytes
      readChunks rounds (some format) bytes
    else if name = named "data" then
      let format ← found
      return (format, length.toNat, bytes)
    else if name = named "fact" then
      readChunks rounds found (← skip 4 bytes)
    else
      readChunks rounds found (← skip length.toNat bytes)

/-- Reads the header of a file: none if it is no file of this format, or not a whole number of
samples for every channel. -/
def ofOctets? (bytes : Octets) : Option WaveFile := do
  let (riff, bytes) ← takeName bytes
  if riff ≠ named "RIFF" then none
  let (_, bytes) ← take32 bytes
  let (wave, bytes) ← takeName bytes
  if wave ≠ named "WAVE" then none
  let (format, length, data) ← readChunks bytes.length none bytes
  let promised := length / format.bytesPerSample
  if promised * format.bytesPerSample ≠ length then none
  if promised % format.channels.toNat ≠ 0 then none
  return { format, promised, data }

/-! ## The samples -/

/-- Reads one sample of two bytes; none if it is not there or takes more. -/
def readSample (w : WaveFile) : Option Int16 × WaveFile :=
  let w := { w with promised := w.promised - 1 }
  if w.format.bytesPerSample ≠ 2 then (none, w)
  else match w.data with
    | a :: b :: rest => (some (Octets.readLe16 a b).toInt16, { w with data := rest })
    | _ => (none, { w with data := [] })

/-- Reads so many samples, or all that are promised if they are fewer, and puts them before those
read so far in reverse. It stops at the first that cannot be read, and gives none then. -/
def readSamples : (wanted : Nat) → WaveFile → List Int16 → Option (List Int16) × WaveFile
  | 0, w, out => (some out.reverse, w)
  | wanted + 1, w, out =>
    if w.promised = 0 then (some out.reverse, w)
    else match w.readSample with
      | (some s, w) => readSamples wanted w (s :: out)
      | (none, w) => (none, w)

end WaveFile

end Parley
