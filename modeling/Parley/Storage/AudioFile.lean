import Parley.Storage.ByteStream
import Parley.Storage.Wave
import Parley.Text.Span

/-!
# `Parley/Storage/AudioFile.lean` — a file whose audio is sent

A file whose name ends in `.wav` is read in the RIFF/WAVE format, and must hold sixteen-bit whole
samples. Any other file is taken as bare samples, two channels of 48 kHz, lowest byte first. Counts
that a word of 64 bits has room for are taken as they are (`asked_eq_of_lt`).
-/

set_option autoImplicit false

namespace Parley

inductive SourceError where
  /-- There is no such file, or it is damaged. -/
  | unreadable
  | unsupported (name : String) (bits : UInt16) (isFloat : Bool)
  | emptyFormat (name : String)
  deriving DecidableEq

/-- The complaint, where it is the client's own. -/
def SourceError.detail? : SourceError → Option String
  | .unreadable => none
  | .unsupported name bits isFloat => some
    (name ++ ": only 16-bit integer WAV is supported, got " ++ toString bits ++ " bit "
      ++ (if isFloat then "Float" else "Int"))
  | .emptyFormat name => some (name ++ ": empty audio format")

/-- How fast a file is played, and on how many channels. -/
structure AudioFormat where
  sampleRate : UInt32
  channels : UInt16
  deriving DecidableEq

/-- The format of bare samples. -/
def AudioFormat.raw : AudioFormat := { sampleRate := 48000, channels := 2 }

/-- The part of a file that is not read yet. -/
inductive AudioData where
  | wave (file : WaveFile)
  | raw (stream : ByteStream)
  deriving DecidableEq

structure AudioFile where
  name : String
  format : AudioFormat
  data : AudioData
  deriving DecidableEq

namespace AudioFile

/-- The part of a file name after its last dot; none if there is no dot, or only one in front. -/
def extension? (name : List Char) : Option (List Char) :=
  let (reversed, rest) := name.reverse.span (· != '.')
  match rest with
  | _ :: _ :: _ => some reversed.reverse
  | _ => none

/-- Whether a path names a file of the RIFF/WAVE format. -/
def isWave (path : String) : Bool :=
  let name := (path.toList.reverse.takeWhile (· != '/')).reverse
  (extension? name).any fun e => e.map Char.toLower == "wav".toList

/-- Opens a file with this content, if there is one. -/
def openAs (name : String) (content : Option ByteStream) : Except SourceError AudioFile := do
  let stream ← match content with
    | some stream => pure stream
    | none => throw .unreadable
  if isWave name then
    match WaveFile.ofOctets? stream.data with
    | none => throw .unreadable
    | some wave =>
      let f := wave.format
      if f.isFloat || f.bitsPerSample != 16 then
        throw (.unsupported name f.bitsPerSample f.isFloat)
      if f.sampleRate = 0 then throw (.emptyFormat name)
      return {
        name
        format := { sampleRate := f.sampleRate, channels := f.channels }
        data := .wave wave }
  else return { name, format := .raw, data := .raw stream }

/-- The number of samples or bytes to ask for, which is a word of 64 bits: a larger one wraps. -/
def asked (n : Nat) : Nat := n % 0x10000000000000000

theorem asked_eq_of_lt {n : Nat} (h : n < 0x10000000000000000) : asked n = n := Nat.mod_eq_of_lt h

/-- Reads so many samples of every channel, or all that are left if they are fewer. -/
def readChunk (f : AudioFile) (frames : Nat) : Except SourceError (List Int16) × AudioFile :=
  let wanted := asked (frames * f.format.channels.toNat)
  match f.data with
  | .wave wave => match wave.readSamples wanted [] with
    | (some samples, wave) => (.ok samples, { f with data := .wave wave })
    | (none, wave) => (.error .unreadable, { f with data := .wave wave })
  | .raw stream =>
    let (bytes, stream) := stream.fill (asked (wanted * 2))
    (.ok (Octets.samplesLe bytes), { f with data := .raw stream })

/-- The samples of every channel that one chunk of this length takes, one at least. -/
def framesPer (f : AudioFile) (length : Span) : Nat :=
  max (asked (f.format.sampleRate.toNat * length.millis / 1000)) 1

/-- More than the number of chunks that can still be read, whatever their length: each takes a byte
of the file or a promised sample. -/
def bound (f : AudioFile) : Nat :=
  match f.data with
  | .wave wave => wave.promised + 1
  | .raw stream => stream.data.length + 1

/-- Reads chunks until one is empty, and says what stopped the reading if it was not that. -/
def readRounds : (rounds : Nat) → AudioFile → (frames : Nat) →
    List (List Int16) × Option SourceError
  | 0, _, _ => ([], none)
  | rounds + 1, f, frames =>
    match f.readChunk frames with
    | (.error e, _) => ([], some e)
    | (.ok [], _) => ([], none)
    | (.ok samples, f) =>
      let (more, e) := readRounds rounds f frames
      (samples :: more, e)

/-- The chunks of this length that a file consists of, and what stopped the reading if it was not
the end of the file. -/
def chunks (f : AudioFile) (length : Span) : List (List Int16) × Option SourceError :=
  readRounds f.bound f (f.framesPer length)

end AudioFile

end Parley
