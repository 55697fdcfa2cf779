import Parley.Pipeline.Receiver

/-!
# `Parley/Proofs/Pipeline/Orders.lean` — a receiver in two halves

A receiver puts frames in order and it decodes and records them, and the second never bears on the
first. So it can be taken apart: its streams turn packets into `Order`s, whatever comes of these,
and its other half performs them one after the other. `Receiver.take_eq` says that this is what a
receiver does with a packet, and `Receiver.session_eq` says it of a whole session. What a property
of the streams and one of the recording have to do with each other is then a matter of the orders
between them.
-/

set_option autoImplicit false

namespace Parley

open Parley.Rtp

/-- What the streams ask of the half that decodes and records. -/
inductive Order where
  /-- Count a packet that carries no frame. -/
  | garbled
  | play (frame : Frame)
  /-- Close the file of a stream, which left this buffer behind. -/
  | retire (ssrc : UInt32) (buffer : JitterBuffer)

/-- The frame that a packet carries, if it can be told. -/
def frameOf? (packet : Octets) : Option Frame :=
  match Packet.decode packet with
  | .ok packet => packet.toFrame?
  | .error _ => none

/-! ## The streams -/

/-- The half of a receiver that takes packets in. -/
structure Streams where
  table : Table UInt32 RemoteStream := {}
  received : Nat := 0
  heard : Nat := 0

namespace Streams

/-- Gives up the stream heard least recently. -/
def evict (s : Streams) : Streams × List Order :=
  match Receiver.leastRecent s.table.entries with
  | none => (s, [])
  | some (ssrc, stream) =>
    ({ s with table := s.table.erase ssrc },
      stream.jitter.drain.1.map .play ++ [.retire ssrc stream.jitter.drain.2])

/-- Gives up a stream if there is none of this source and no room for it. -/
def makeRoom (config : ReceiverConfig) (s : Streams) (ssrc : UInt32) : Streams × List Order :=
  if !s.table.contains ssrc && config.maxRemoteStreams ≤ s.table.size then s.evict else (s, [])

/-- The buffer of a stream, which is new if nothing was heard of it. -/
def buffer (config : ReceiverConfig) (s : Streams) (ssrc : UInt32) : JitterBuffer :=
  match s.table.get? ssrc with
  | some stream => stream.jitter
  | none => .new config.jitter

def hear (config : ReceiverConfig) (s : Streams) (frame : Frame) : Streams × List Order :=
  let played := ((s.buffer config frame.ssrc).push frame).popAll
  ({ s with
      table := s.table.insert frame.ssrc { jitter := played.2, lastHeard := s.heard + 1 }
      heard := s.heard + 1 },
    played.1.map .play)

/-- One half done after the other, with the orders of both. -/
def andThen (out : Streams × List Order) (next : Streams → Streams × List Order) :
    Streams × List Order :=
  ((next out.1).1, out.2 ++ (next out.1).2)

def takePacket (config : ReceiverConfig) (s : Streams) (packet : Octets) : Streams × List Order :=
  let s := { s with received := s.received + 1 }
  match frameOf? packet with
  | none => (s, [.garbled])
  | some frame => andThen (s.makeRoom config frame.ssrc) (·.hear config frame)

/-- Takes a packet in if the client is joined. -/
def take (config : ReceiverConfig) (s : Streams) (packet : Bool × Octets) : Streams × List Order :=
  if packet.1 then s.takePacket config packet.2 else (s, [])

def takes (config : ReceiverConfig) (s : Streams) :
    List (Bool × Octets) → Streams × List Order
  | [] => (s, [])
  | packet :: rest => andThen (s.take config packet) (·.takes config rest)

def playOut (s : Streams) (ssrc : UInt32) : Streams × List Order :=
  match s.table.get? ssrc with
  | none => (s, [])
  | some stream =>
    ({ s with table := s.table.insert ssrc { stream with jitter := stream.jitter.drain.2 } },
      stream.jitter.drain.1.map .play)

/-- Plays out streams, one after the other. -/
def playOuts (s : Streams) : List UInt32 → Streams × List Order
  | [] => (s, [])
  | ssrc :: rest => andThen (s.playOut ssrc) (·.playOuts rest)

/-- A whole session, with streams played out in a given order at its end. -/
def sessionIn (config : ReceiverConfig) (packets : List (Bool × Octets)) (ssrcs : List UInt32) :
    Streams × List Order :=
  andThen (takes config {} packets) (·.playOuts ssrcs)

end Streams

/-! ## The other half -/

namespace Receiver

def perform (r : Receiver) : Order → Receiver
  | .garbled => r.decodeFailed
  | .play frame => r.play frame
  | .retire ssrc _ => { r with recorder := r.recorder.close ssrc }

def performAll (r : Receiver) (orders : List Order) : Receiver := orders.foldl perform r

def side (r : Receiver) : Streams :=
  { table := r.streams, received := r.received, heard := r.heard }

def withSide (r : Receiver) (s : Streams) : Receiver :=
  { r with streams := s.table, received := s.received, heard := s.heard }

/-- A receiver whose streams have gone on, with their orders performed. -/
def follow (r : Receiver) (out : Streams × List Order) : Receiver :=
  (r.withSide out.1).performAll out.2

section Halves

variable (r : Receiver)

theorem decodeFailed_withSide (s : Streams) :
    (r.withSide s).decodeFailed = r.decodeFailed.withSide s := by
  unfold decodeFailed
  dsimp only [withSide]
  split <;> rfl

theorem play_withSide (s : Streams) (frame : Frame) :
    (r.withSide s).play frame = (r.play frame).withSide s := by
  cases hdecode : Audio.decode frame.codec frame.payload with
  | error e =>
    simp only [play, hdecode]
    exact decodeFailed_withSide r s
  | ok samples =>
    cases hdone : (r.recorder.write frame.ssrc samples).1 with
    | true => simp [play, hdecode, hdone, withSide]
    | false =>
      simp only [play, hdecode, hdone, withSide, sinkFailed]
      rfl

/-- What is performed and how the streams stand have nothing to do with each other. -/
theorem perform_withSide (s : Streams) (order : Order) :
    (r.withSide s).perform order = (r.perform order).withSide s := by
  cases order with
  | garbled => exact decodeFailed_withSide r s
  | play frame => exact play_withSide r s frame
  | retire ssrc buffer => rfl

theorem performAll_withSide (s : Streams) (orders : List Order) :
    (r.withSide s).performAll orders = (r.performAll orders).withSide s := by
  induction orders generalizing r with
  | nil => rfl
  | cons order rest ih =>
    show ((r.withSide s).perform order).performAll rest =
      ((r.perform order).performAll rest).withSide s
    rw [perform_withSide, ih]

theorem side_performAll (orders : List Order) : (r.performAll orders).side = r.side := by
  have h := performAll_withSide r r.side orders
  rw [show r.withSide r.side = r from rfl] at h
  rw [h]
  rfl

theorem config_decodeFailed : r.decodeFailed.config = r.config := by
  unfold decodeFailed
  dsimp only
  split <;> rfl

theorem config_perform (order : Order) : (r.perform order).config = r.config := by
  cases order with
  | garbled => exact config_decodeFailed r
  | retire ssrc buffer => rfl
  | play frame =>
    show (r.play frame).config = _
    unfold play
    split
    · exact config_decodeFailed r
    · dsimp only
      split <;> rfl

theorem config_performAll (orders : List Order) : (r.performAll orders).config = r.config := by
  induction orders generalizing r with
  | nil => rfl
  | cons order rest ih => exact (ih (r.perform order)).trans (config_perform r order)

theorem performAll_append (orders more : List Order) :
    r.performAll (orders ++ more) = (r.performAll orders).performAll more :=
  List.foldl_append

theorem performAll_play (frames : List Frame) :
    r.performAll (frames.map .play) = r.playAll frames :=
  List.foldl_map

@[simp] theorem side_follow (out : Streams × List Order) : (r.follow out).side = out.1 :=
  side_performAll _ _

@[simp] theorem config_follow (out : Streams × List Order) : (r.follow out).config = r.config :=
  config_performAll _ _

/-- To follow the streams twice is to follow them once, over both stretches. -/
theorem follow_andThen (out : Streams × List Order) (next : Streams → Streams × List Order) :
    (r.follow out).follow (next (r.follow out).side) = r.follow (Streams.andThen out next) := by
  rw [side_follow]
  show (((r.withSide out.1).performAll out.2).withSide _).performAll _ =
    (r.withSide _).performAll (_ ++ _)
  rw [← performAll_withSide, performAll_append]
  rfl

/-! ## A receiver is its two halves -/

theorem evict_eq : r.evict = r.follow r.side.evict := by
  unfold evict Streams.evict
  show (match leastRecent r.streams.entries with | none => r | some (ssrc, stream) => _) =
    r.follow (match leastRecent r.streams.entries with
      | none => (r.side, [])
      | some (ssrc, stream) => _)
  cases leastRecent r.streams.entries with
  | none => rfl
  | some e =>
    rw [follow, performAll_append, performAll_play]
    rfl

/-- The receiver with room for a stream of this source. -/
def roomFor (ssrc : UInt32) : Receiver :=
  if !r.streams.contains ssrc && r.config.maxRemoteStreams ≤ r.streams.size then r.evict else r

theorem roomFor_eq (ssrc : UInt32) :
    r.roomFor ssrc = r.follow (r.side.makeRoom r.config ssrc) := by
  rw [Streams.makeRoom, apply_ite r.follow, roomFor, evict_eq]
  rfl

theorem follow_hear (frame : Frame) :
    r.follow (r.side.hear r.config frame) =
      let played := ((r.side.buffer r.config frame.ssrc).push frame).popAll
      { r with
        heard := r.heard + 1
        streams := r.streams.insert frame.ssrc
          { jitter := played.2, lastHeard := r.heard + 1 } }.playAll played.1 := by
  rw [follow, Streams.hear, performAll_play]
  rfl

theorem onFrame_eq (frame : Frame) :
    r.onFrame frame =
      r.follow (Streams.andThen (r.side.makeRoom r.config frame.ssrc) (·.hear r.config frame)) := by
  have hconfig : (r.roomFor frame.ssrc).config = r.config := by
    rw [roomFor_eq, config_follow]
  rw [← follow_andThen, ← roomFor_eq, ← hconfig, follow_hear]
  rfl

theorem onPacket_eq (packet : Octets) :
    r.onPacket packet = r.follow (r.side.takePacket r.config packet) := by
  unfold onPacket Streams.takePacket frameOf?
  cases hdecode : Packet.decode packet with
  | error e => rfl
  | ok body =>
    dsimp only
    cases hframe : body.toFrame? with
    | none => rfl
    | some frame => exact onFrame_eq { r with received := r.received + 1 } frame

theorem take_eq (packet : Bool × Octets) :
    r.take packet.1 packet.2 = r.follow (r.side.take r.config packet) := by
  unfold take Streams.take
  split
  · exact onPacket_eq r packet.2
  · rfl

end Halves

theorem takes_eq (r : Receiver) (packets : List (Bool × Octets)) :
    packets.foldl (fun r p => r.take p.1 p.2) r = r.follow (r.side.takes r.config packets) := by
  induction packets generalizing r with
  | nil => rfl
  | cons packet rest ih =>
    rw [List.foldl_cons, ih, take_eq, config_follow]
    exact follow_andThen r _ (·.takes r.config rest)

theorem playOut_eq (r : Receiver) (ssrc : UInt32) :
    r.playOut ssrc = r.follow (r.side.playOut ssrc) := by
  unfold playOut Streams.playOut
  show (match r.streams.get? ssrc with | none => r | some stream => _) =
    r.follow (match r.streams.get? ssrc with | none => (r.side, []) | some stream => _)
  cases r.streams.get? ssrc with
  | none => rfl
  | some stream =>
    rw [follow, performAll_play]
    rfl

theorem playOuts_eq (r : Receiver) (ssrcs : List UInt32) :
    ssrcs.foldl playOut r = r.follow (r.side.playOuts ssrcs) := by
  induction ssrcs generalizing r with
  | nil => rfl
  | cons ssrc rest ih =>
    rw [List.foldl_cons, ih, playOut_eq]
    exact follow_andThen r _ (·.playOuts rest)

theorem streams_takes (r : Receiver) (packets : List (Bool × Octets)) :
    (packets.foldl (fun r p => r.take p.1 p.2) r).streams =
      (r.side.takes r.config packets).1.table := by
  rw [takes_eq]
  exact congrArg Streams.table (side_follow r _)

/-- After a session, its orders have been performed and what was recorded has reached the files. -/
theorem session_eq (config : ReceiverConfig) (recorder : Recorder)
    (packets : List (Bool × Octets)) (ssrcs : List UInt32) :
    let first : Receiver := { config, recorder }
    let session := Streams.sessionIn config packets ssrcs
    let played := first.performAll session.2
    (packets.foldl (fun r p => r.take p.1 p.2) first).finishIn ssrcs =
      { played.withSide session.1 with recorder := played.recorder.flush } := by
  intro first session played
  have hplayed : ssrcs.foldl playOut (first.follow (first.side.takes config packets)) =
      first.follow session := by
    rw [playOuts_eq]
    exact follow_andThen first _ (·.playOuts ssrcs)
  rw [takes_eq]
  unfold finishIn
  rw [hplayed, follow, performAll_withSide]
  rfl

end Receiver

end Parley
