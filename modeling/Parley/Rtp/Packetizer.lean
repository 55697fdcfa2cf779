import Parley.Audio.Downmix
import Parley.Audio.Frame
import Parley.Audio.Payload
import Parley.Audio.Resampler

/-!
# `Parley/Rtp/Packetizer.lean` — captured samples into frames

The sending side of one stream: interleaved samples are mixed down to one channel, brought to the
codec's clock rate, cut into frames of twenty milliseconds and encoded. What does not fill a frame
stays pending for the next push. Frames are numbered one after the other, and their timestamps
count samples.
-/

set_option autoImplicit false

namespace Parley.Rtp

open Parley.Audio

/-- The state of a stream between two pushes. -/
structure Packetizer where
  codec : Codec
  ssrc : UInt32
  sequence : UInt16
  timestamp : UInt32
  inputRate : UInt32
  channels : UInt16
  resampler : Resampler
  /-- Samples that wait for the rest of their frame. -/
  pending : List Int16 := []
  deriving DecidableEq

namespace Packetizer

/-- A stream that starts at the given number and time. -/
def new (codec : Codec) (inputRate : UInt32) (channels : UInt16) (ssrc : UInt32)
    (sequence : UInt16) (timestamp : UInt32) : Packetizer :=
  { codec, ssrc, sequence, timestamp, inputRate, channels
    resampler := .new .double inputRate codec.clockRate }

/-- Changes the codec. Samples at the rate of another codec are discarded. -/
def setCodec (p : Packetizer) (codec : Codec) : Packetizer :=
  if codec = p.codec then p
  else
    { p with
      codec
      resampler := .new .double p.inputRate codec.clockRate
      pending := [] }

/-- Makes the next frame of these samples. -/
def nextFrame (p : Packetizer) (samples : List Int16) : Frame × Packetizer :=
  ({ sequence := p.sequence
     timestamp := p.timestamp
     ssrc := p.ssrc
     codec := p.codec
     payload := encode p.codec samples },
    { p with
      sequence := p.sequence + 1
      timestamp := p.timestamp + UInt32.ofNat samples.length })

/-- Makes a frame of each list of samples. -/
def frames (p : Packetizer) : List (List Int16) → List Frame × Packetizer
  | [] => ([], p)
  | samples :: rest =>
    let (frame, p) := p.nextFrame samples
    let (more, p) := frames p rest
    (frame :: more, p)

/-- Takes interleaved samples in; the frames that they complete come out. -/
def push (p : Packetizer) (interleaved : List Int16) : List Frame × Packetizer :=
  let (resampled, resampler) := p.resampler.process (downmix p.channels interleaved)
  let samples := p.pending ++ resampled
  let size := p.codec.samplesPerFrame
  { p with resampler, pending := leftover size samples }.frames (groups size samples)

/-- Makes a frame of what is pending, filled up with silence. -/
def flush (p : Packetizer) : Option Frame × Packetizer :=
  if p.pending.isEmpty then (none, p)
  else
    let size := p.codec.samplesPerFrame
    let samples := (p.pending ++ List.replicate (size - p.pending.length) 0).take size
    let (frame, p) := { p with pending := [] }.nextFrame samples
    (some frame, p)

end Packetizer

end Parley.Rtp
