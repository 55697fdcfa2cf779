import Parley.Rtp.Packet
import Parley.Rtp.Packetizer
import Parley.Storage.AudioFile

/-!
# `Parley/Pipeline/Sender.lean` — from audio to packets for the service

Every twenty milliseconds one chunk of audio is taken. While the client is joined it becomes frames,
and each frame is put into a queue for the connection; one that finds the queue full is dropped. A
chunk that comes while the client is not joined is dropped whole, before anything is numbered. At
the end of the audio, what is left becomes a last frame.
-/

set_option autoImplicit false

namespace Parley

open Parley.Rtp

/-- Packets on their way to the connection. -/
structure PacketQueue where
  capacity : Nat
  waiting : List Octets := []
  /-- Whether nobody takes packets any more. -/
  closed : Bool := false
  deriving DecidableEq

structure Sender where
  packetizer : Packetizer
  queue : PacketQueue
  sent : Nat := 0
  dropped : Nat := 0
  deriving DecidableEq

namespace Sender

/-- Puts a frame into the queue, unless the queue is closed. -/
def enqueue (s : Sender) (frame : Frame) : Option Sender :=
  if s.queue.closed then none
  else if s.queue.waiting.length < s.queue.capacity then
    let waiting := s.queue.waiting ++ [(Packet.ofFrame frame).encode]
    some { s with sent := s.sent + 1, queue := { s.queue with waiting } }
  else some { s with dropped := s.dropped + 1 }

/-- Puts frames into the queue, in order, until it turns out to be closed; and says whether it is
open still. -/
def enqueueAll (s : Sender) : List Frame → Bool × Sender
  | [] => (true, s)
  | frame :: rest => match s.enqueue frame with
    | none => (false, s)
    | some s => enqueueAll s rest

/-- Takes a chunk of audio; and says whether more is wanted. -/
def onChunk (s : Sender) (joined : Bool) (codec : Codec) (samples : List Int16) : Bool × Sender :=
  if joined then
    let (frames, packetizer) := (s.packetizer.setCodec codec).push samples
    { s with packetizer }.enqueueAll frames
  else (true, { s with dropped := s.dropped + 1 })

/-- Takes the end of the audio. -/
def finish (s : Sender) (joined : Bool) : Sender :=
  match s.packetizer.flush with
  | (none, packetizer) => { s with packetizer }
  | (some frame, packetizer) =>
    let s := { s with packetizer }
    if joined then (s.enqueue frame).getD s else s

def takePackets (s : Sender) : List Octets × Sender :=
  (s.queue.waiting, { s with queue := { s.queue with waiting := [] } })

def closeQueue (s : Sender) : Sender := { s with queue := { s.queue with closed := true } }

end Sender

/-! ## The audio that is sent -/

/-- The audio of a file on its way to the sender, chunk by chunk. It is read ahead of the sender, as
far as so many chunks may wait. -/
structure Playback where
  /-- The chunks that are not taken yet. -/
  chunks : List (List Int16)
  /-- What stops the reading after those chunks, if it is not the end of the file. -/
  fault : Option SourceError
  deriving DecidableEq

namespace Playback

/-- The chunks that may wait for the sender. -/
def readAhead : Nat := 4

/-- The audio of a file in chunks of one frame's length. -/
def ofFile (f : AudioFile) : Playback :=
  let (chunks, fault) := f.chunks (.ofMillis Codec.frameMillis)
  { chunks, fault }

/-- Whether the reading has come to its fault by now. -/
def hasFailed (p : Playback) : Bool := p.fault.isSome && p.chunks.length ≤ readAhead

end Playback

/-- A sender with the audio that it sends. It has ended once the audio is used up, the queue is
closed or the pipeline is told to stop. -/
structure SendPath where
  sender : Sender
  playback : Playback
  ended : Bool := false
  /-- Whether it ended because the audio could not be read. -/
  failed : Bool := false
  deriving DecidableEq

namespace SendPath

/-- The path for a file. Its stream starts at number and time zero. -/
def ofFile (f : AudioFile) (codec : Codec) (capacity : Nat) : SendPath :=
  { sender :=
      { packetizer := .new codec f.format.sampleRate f.format.channels 0 0 0
        queue := { capacity } }
    playback := .ofFile f }

def stop (p : SendPath) : SendPath :=
  if p.ended then p else { p with ended := true, failed := p.playback.hasFailed }

/-- Lets twenty milliseconds pass. -/
def tick (p : SendPath) (joined : Bool) (codec : Codec) : SendPath :=
  if p.ended then p
  else match p.playback.chunks with
    | [] => { p with sender := p.sender.finish joined }.stop
    | samples :: chunks =>
      let (wanted, sender) := p.sender.onChunk joined codec samples
      let p := { p with sender, playback := { p.playback with chunks } }
      if wanted then p else p.stop

/-- Lets time pass until so many frames were sent or dropped, or the path has ended. -/
def runUntil (joined : Bool) (codec : Codec) (target : Nat) : (ticks : Nat) → SendPath → SendPath
  | 0, p => p
  | ticks + 1, p =>
    if p.ended || target ≤ p.sender.sent + p.sender.dropped then p
    else runUntil joined codec target ticks (p.tick joined codec)

/-- Lets so much time pass that the path ends, or until so many frames were sent or dropped. -/
def run (p : SendPath) (joined : Bool) (codec : Codec) (target : Nat) : SendPath :=
  runUntil joined codec target (p.playback.chunks.length + 1) p

/-- Lets so many ticks pass. -/
def ticks (joined : Bool) (codec : Codec) : (n : Nat) → SendPath → SendPath
  | 0, p => p
  | n + 1, p => ticks joined codec n (p.tick joined codec)

/-- Lets time pass until the path has ended. -/
def runToEnd (p : SendPath) (joined : Bool) (codec : Codec) : SendPath :=
  ticks joined codec (p.playback.chunks.length + 1) p

def takePackets (p : SendPath) : List Octets × SendPath :=
  let (packets, sender) := p.sender.takePackets
  (packets, { p with sender })

def closeQueue (p : SendPath) : SendPath := { p with sender := p.sender.closeQueue }

end SendPath

end Parley
