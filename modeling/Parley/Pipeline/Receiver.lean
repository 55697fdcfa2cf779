import Parley.Audio.Payload
import Parley.Pipeline.MediaError
import Parley.Rtp.JitterBuffer
import Parley.Rtp.Packet
import Parley.Storage.Recorder

/-!
# `Parley/Pipeline/Receiver.lean` — from packets to recorded audio

Packets of any number of streams come in. Each stream has a jitter buffer; what a buffer releases is
decoded and recorded. Only so many streams are kept at once: when one more is heard, the one that was
heard least recently is played out and closed first.

A packet or frame that cannot be decoded is counted and skipped, and so is a frame that cannot be
recorded. Lasting trouble of either kind raises an alert: every so many failures in a row to decode,
and the first of a row of failures to record.
-/

set_option autoImplicit false

namespace Parley

open Parley.Rtp

/-- The limits of the receiving side. -/
structure ReceiverConfig where
  /-- The failures in a row to decode that raise an alert. -/
  maxConsecutiveDecodeFailures : UInt32 := 25
  jitter : JitterConfig := {}
  /-- The streams kept at once. -/
  maxRemoteStreams : Nat := 16
  deriving DecidableEq

/-- Alerts on their way to whoever acts on them. Only a few may wait; one more is lost. -/
structure AlertQueue where
  waiting : List MediaError := []
  /-- All alerts, lost ones included. -/
  raised : List MediaError := []
  deriving DecidableEq

def AlertQueue.capacity : Nat := 4

def AlertQueue.raise (q : AlertQueue) (alert : MediaError) : AlertQueue :=
  { waiting := if q.waiting.length < capacity then q.waiting ++ [alert] else q.waiting
    raised := q.raised ++ [alert] }

structure RemoteStream where
  jitter : JitterBuffer
  /-- The number of the last packet of this stream, counted over all streams. -/
  lastHeard : Nat
  deriving DecidableEq

structure Receiver where
  config : ReceiverConfig
  recorder : Recorder := {}
  streams : Table UInt32 RemoteStream := {}
  /-- All packets taken in. -/
  received : Nat := 0
  /-- Frames that could not be recorded. -/
  dropped : Nat := 0
  decodeErrors : Nat := 0
  /-- The packets that were frames of a known codec. -/
  heard : Nat := 0
  consecutiveFailures : Nat := 0
  /-- Whether the last frame to record could not be recorded. -/
  sinkFailing : Bool := false
  alerts : AlertQueue := {}

namespace Receiver

/-- Counts a packet or frame that could not be decoded. -/
def decodeFailed (r : Receiver) : Receiver :=
  let failures := r.consecutiveFailures + 1
  let r := { r with decodeErrors := r.decodeErrors + 1 }
  if r.config.maxConsecutiveDecodeFailures.toNat ≤ failures then
    { r with
      consecutiveFailures := 0
      alerts := r.alerts.raise (.sustainedDecodeFailure failures) }
  else { r with consecutiveFailures := failures }

/-- Counts a frame that could not be recorded. -/
def sinkFailed (r : Receiver) : Receiver :=
  { r with
    dropped := r.dropped + 1
    sinkFailing := true
    alerts := if r.sinkFailing then r.alerts else r.alerts.raise .sink }

/-- Decodes and records a frame. -/
def play (r : Receiver) (frame : Frame) : Receiver :=
  match Audio.decode frame.codec frame.payload with
  | .error _ => r.decodeFailed
  | .ok samples =>
    let (done, recorder) := r.recorder.write frame.ssrc samples
    let r := { r with recorder, consecutiveFailures := 0 }
    if done then { r with sinkFailing := false } else r.sinkFailed

def playAll (r : Receiver) (frames : List Frame) : Receiver := frames.foldl play r

def leastRecent (streams : List (UInt32 × RemoteStream)) : Option (UInt32 × RemoteStream) :=
  streams.foldl
    (fun least e => match least with
      | none => some e
      | some l => if e.2.lastHeard < l.2.lastHeard then some e else some l)
    none

/-- Plays out and closes the stream heard least recently. -/
def evict (r : Receiver) : Receiver :=
  match leastRecent r.streams.entries with
  | none => r
  | some (ssrc, stream) =>
    let r := { r with streams := r.streams.erase ssrc }.playAll stream.jitter.drain.1
    { r with recorder := r.recorder.close ssrc }

/-- Takes a frame in, as the latest packet of its stream. -/
def onFrame (r : Receiver) (frame : Frame) : Receiver :=
  let full := !r.streams.contains frame.ssrc && r.config.maxRemoteStreams ≤ r.streams.size
  let r := if full then r.evict else r
  let heard := r.heard + 1
  let jitter := match r.streams.get? frame.ssrc with
    | some stream => stream.jitter
    | none => .new r.config.jitter
  let (ready, jitter) := (jitter.push frame).popAll
  { r with heard, streams := r.streams.insert frame.ssrc { jitter, lastHeard := heard } }.playAll
    ready

/-- Takes a packet in. -/
def onPacket (r : Receiver) (packet : Octets) : Receiver :=
  let r := { r with received := r.received + 1 }
  match Packet.decode packet with
  | .error _ => r.decodeFailed
  | .ok packet => match packet.toFrame? with
    | none => r.decodeFailed
    | some frame => r.onFrame frame

/-- Takes a packet in if the client is joined; otherwise the packet is ignored. -/
def take (r : Receiver) (joined : Bool) (packet : Octets) : Receiver :=
  if joined then r.onPacket packet else r

/-- Plays out one stream, which stays open. -/
def playOut (r : Receiver) (ssrc : UInt32) : Receiver :=
  match r.streams.get? ssrc with
  | none => r
  | some stream =>
    let (frames, jitter) := stream.jitter.drain
    { r with streams := r.streams.insert ssrc { stream with jitter } }.playAll frames

/-- Plays out the streams of these sources, in the order given, and flushes all files. A session ends
with all of its streams played out, in whatever order chance has them come up. -/
def finishIn (r : Receiver) (ssrcs : List UInt32) : Receiver :=
  let r := ssrcs.foldl playOut r
  { r with recorder := r.recorder.flush }

end Receiver

end Parley
