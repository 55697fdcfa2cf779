import Parley.Pipeline.Sender
import Parley.Proofs.Audio.Mixing
import Parley.Proofs.Audio.Thinning
import Parley.Proofs.Rtp.Framing

/-!
# `Parley/Proofs/Pipeline/Sending.lean` — a file on its way to the service

The sender takes a file in chunks of twenty milliseconds, and each chunk goes through four stations
that remember something of the one before: the reader, the mixer, the resampler and the packetizer.
None of this can be seen in what is sent: as long as the client is joined, the codec stays and the
queue has room, the packets are those of the whole file in one piece (`sent_in_one_piece`).
-/

set_option autoImplicit false

namespace Parley

open Parley.Audio Parley.Rtp

/-- Frames as the packets that are put into the queue. -/
def written (frames : List Frame) : List Octets := frames.map fun f => (Packet.ofFrame f).encode

/-! ## Into the queue -/

/-- How many packets more the queue can hold. -/
def PacketQueue.room (q : PacketQueue) : Nat := q.capacity - q.waiting.length

namespace Sender

/-- The sender once frames were put into its queue. -/
def accept (s : Sender) (frames : List Frame) : Sender :=
  { s with
    sent := s.sent + frames.length
    queue := { s.queue with waiting := s.queue.waiting ++ written frames } }

theorem accept_nil (s : Sender) : s.accept [] = s := by
  simp [accept, written]

theorem accept_append (s : Sender) (frames more : List Frame) :
    (s.accept frames).accept more = s.accept (frames ++ more) := by
  simp [accept, written, Nat.add_assoc]

variable {s : Sender}

theorem enqueue_of_room (hopen : s.queue.closed = false) (frame : Frame)
    (hroom : s.queue.waiting.length < s.queue.capacity) :
    s.enqueue frame = some (s.accept [frame]) := by
  rw [enqueue, hopen, if_neg Bool.false_ne_true, if_pos hroom]
  rfl

/-- The sender once frames came to its open queue, and those that found it full were dropped. -/
def absorb (s : Sender) (frames : List Frame) : Sender :=
  { s.accept (frames.take s.queue.room) with
    dropped := s.dropped + (frames.drop s.queue.room).length }

/-- An open queue takes the first frames, as many as it has room for, and no more of them. -/
theorem enqueueAll_of_open (hopen : s.queue.closed = false) (frames : List Frame) :
    s.enqueueAll frames = (true, s.absorb frames) := by
  induction frames generalizing s with
  | nil =>
    rw [enqueueAll, absorb, List.take_nil, List.drop_nil, accept_nil]
    rfl
  | cons frame rest ih =>
    by_cases hroom : s.queue.waiting.length < s.queue.capacity
    · have hwaiting : (s.accept [frame]).queue.waiting.length = s.queue.waiting.length + 1 :=
        List.length_append
      have hone : s.queue.room = (s.accept [frame]).queue.room + 1 := by
        rw [PacketQueue.room, PacketQueue.room, hwaiting]
        show s.queue.capacity - _ = s.queue.capacity - _ + 1
        omega
      rw [enqueueAll, enqueue_of_room hopen frame hroom]
      refine (ih (s := s.accept [frame]) hopen).trans (congrArg (Prod.mk true) ?_)
      rw [absorb, absorb, hone, List.take_succ_cons, List.drop_succ_cons, accept_append]
      rfl
    · have hfull : s.queue.room = 0 := Nat.sub_eq_zero_of_le (Nat.le_of_not_lt hroom)
      have henqueue : s.enqueue frame = some { s with dropped := s.dropped + 1 } := by
        rw [enqueue, hopen, if_neg Bool.false_ne_true, if_neg hroom]
      rw [enqueueAll, henqueue]
      refine (ih (s := { s with dropped := s.dropped + 1 }) hopen).trans
        (congrArg (Prod.mk true) ?_)
      rw [absorb, absorb, hfull, List.drop_zero, List.drop_zero, List.length_cons,
        Nat.add_comm rest.length, ← Nat.add_assoc]
      rfl

/-- Frames that there is room for are all put into an open queue. -/
theorem enqueueAll_of_room (hopen : s.queue.closed = false) {frames : List Frame}
    (hroom : s.queue.waiting.length + frames.length ≤ s.queue.capacity) :
    s.enqueueAll frames = (true, s.accept frames) := by
  have hfit : frames.length ≤ s.queue.room := Nat.le_sub_of_add_le (Nat.add_comm .. ▸ hroom)
  rw [enqueueAll_of_open hopen, absorb, List.take_of_length_le hfit, List.drop_of_length_le hfit]
  rfl

/-- The frames that a chunk completes are put into the queue. -/
theorem onChunk_of_room (hopen : s.queue.closed = false) (samples : List Int16)
    (hroom : s.queue.waiting.length + (s.packetizer.push samples).1.length ≤ s.queue.capacity) :
    s.onChunk true s.packetizer.codec samples =
      (true, { s with packetizer := (s.packetizer.push samples).2 }.accept
        (s.packetizer.push samples).1) := by
  have hsame : s.packetizer.setCodec s.packetizer.codec = s.packetizer := if_pos rfl
  rw [onChunk, if_pos rfl, hsame]
  exact enqueueAll_of_room (s := { s with packetizer := (s.packetizer.push samples).2 }) hopen hroom

/-- What was pending is put into the queue at the end. -/
theorem finish_of_room (hopen : s.queue.closed = false)
    (hroom : s.queue.waiting.length < s.queue.capacity) :
    s.finish true =
      { s with packetizer := s.packetizer.flush.2 }.accept s.packetizer.flush.1.toList := by
  unfold finish
  cases hflush : s.packetizer.flush with
  | mk frame? packetizer =>
    cases frame? with
    | none => exact (accept_nil _).symm
    | some frame =>
      dsimp only
      rw [if_pos rfl, enqueue_of_room (s := { s with packetizer }) hopen frame hroom]
      rfl

end Sender

/-! ## Frames of the pieces of a file -/

namespace Rtp.Packetizer

theorem pushAll_append (p : Packetizer) (front rest : List (List Int16)) :
    p.pushAll (front ++ rest) =
      ((p.pushAll front).1 ++ ((p.pushAll front).2.pushAll rest).1,
        ((p.pushAll front).2.pushAll rest).2) := by
  induction front generalizing p with
  | nil => rfl
  | cons piece front ih => simp only [List.cons_append, pushAll, ih, List.append_assoc]

theorem pushAll_concat (p : Packetizer) (front : List (List Int16)) (piece : List Int16) :
    p.pushAll (front ++ [piece]) =
      ((p.pushAll front).1 ++ ((p.pushAll front).2.push piece).1,
        ((p.pushAll front).2.push piece).2) := by
  rw [pushAll_append]
  simp only [pushAll, List.append_nil]

theorem resampler_pushAll (p : Packetizer) (pieces : List (List Int16)) :
    (p.pushAll pieces).2.resampler =
      (p.resampler.processAll (pieces.map (downmix p.channels))).2 := by
  induction pieces generalizing p with
  | nil => rfl
  | cons piece rest ih =>
    obtain ⟨chunks, hpush, hresampler⟩ := p.cuts_push piece
    have hrest := ih (p.push piece).2
    rw [hresampler, hpush.codec.2] at hrest
    simp only [pushAll, List.map_cons, Resampler.processAll]
    exact hrest

theorem length_frames (p : Packetizer) (chunks : List (List Int16)) :
    (p.frames chunks).1.length = chunks.length := by
  have hlength := congrArg List.length (p.frames_fst chunks).2
  rwa [List.length_map, List.length_map] at hlength

/-- A piece that comes to a frame's length at most makes one frame at most. -/
theorem length_push_le {p : Packetizer} {piece : List Int16}
    (hpending : p.pending.length < p.codec.samplesPerFrame)
    (hpiece : (p.resampler.process (downmix p.channels piece)).1.length ≤
      p.codec.samplesPerFrame) : (p.push piece).1.length ≤ 1 := by
  have hframes : (p.push piece).1.length =
      (p.pending.length + (p.resampler.process (downmix p.channels piece)).1.length) /
        p.codec.samplesPerFrame := by
    unfold push
    dsimp only
    rw [frames_with, length_frames, length_groups p.codec.samplesPerFrame_pos, List.length_append]
  rw [hframes]
  refine Nat.le_of_lt_succ (Nat.div_lt_of_lt_mul ?_)
  omega

end Rtp.Packetizer

/-- How many samples of a file of bare samples there are for one of the codec. -/
def Codec.stride (codec : Codec) : Nat := 48000 / codec.clockRate.toNat

theorem Codec.two_le_stride (codec : Codec) : 2 ≤ codec.stride := by
  cases codec <;> decide

theorem Codec.stride_mul_samplesPerFrame (codec : Codec) :
    codec.stride * codec.samplesPerFrame = 960 := by
  cases codec <;> rfl

theorem Audio.Resampler.aligned_new (codec : Codec) :
    (Resampler.new .double 48000 codec.clockRate).Aligned codec.stride := by
  refine ⟨rfl, ?_, rfl⟩
  have hstep : ((48000 : Nat) : Rat) / (max codec.clockRate.toNat 1 : Nat) =
      ((codec.stride : Int) : Rat) := by
    have hrate : 48000 = codec.stride * max codec.clockRate.toNat 1 := by cases codec <;> rfl
    have hpos : ((max codec.clockRate.toNat 1 : Nat) : Rat) ≠ 0 :=
      Nat.cast_ne_zero.mpr (Nat.ne_of_gt (Nat.lt_of_lt_of_le Nat.one_pos (Nat.le_max_right _ _)))
    rw [div_eq_iff hpos]
    exact_mod_cast hrate
  show Arith.Precision.double.round
    (((48000 : Nat) : Rat) / (max codec.clockRate.toNat 1 : Nat)) = _
  rw [hstep]
  exact round_intCast (by cases codec <;> decide)

/-- A stream for a file of bare samples. -/
def Rtp.Packetizer.forBare (codec : Codec) (ssrc : UInt32) (sequence : UInt16)
    (timestamp : UInt32) : Packetizer := .new codec 48000 2 ssrc sequence timestamp

section Pieces

variable (codec : Codec) (ssrc : UInt32) (sequence : UInt16) (timestamp : UInt32)
  {data : Octets} {pieces : List (List Int16)}

/-- The pieces of a file become the frames of all its samples in a row. -/
theorem packetize_forBare (h : InPieces 1920 (Octets.samplesLe data) pieces) :
    (Packetizer.forBare codec ssrc sequence timestamp).packetize pieces =
      (Packetizer.forBare codec ssrc sequence timestamp).framed
        (thin codec.stride (pairMeans data)) := by
  have hmixed : InPieces 960 _ (pieces.map (downmix 2)) := inPieces_downmix h
  rw [downmix_samplesLe] at hmixed
  have hthin := Resampler.processAll_of_aligned (Resampler.aligned_new codec) codec.two_le_stride
    ⟨_, codec.stride_mul_samplesPerFrame.symm⟩ (by decide) (by decide) hmixed
  rw [Packetizer.packetize_eq_framed rfl]
  exact congrArg _ hthin

/-- No piece of a file makes more than one frame. -/
theorem push_forBare {done rest : List (List Int16)} {piece : List Int16}
    (h : InPieces 1920 (Octets.samplesLe data) (done ++ piece :: rest)) :
    let q := ((Packetizer.forBare codec ssrc sequence timestamp).pushAll done).2
    q.codec = codec ∧ (q.push piece).1.length ≤ 1 := by
  intro q
  obtain ⟨hfull, hpiece⟩ := h.around
  obtain ⟨chunks, hcuts⟩ := (Packetizer.forBare codec ssrc sequence timestamp).cuts_pushAll done
    codec.samplesPerFrame_pos
  have hcodec : q.codec = codec := hcuts.codec.1
  have hchannels : q.channels = 2 := hcuts.codec.2
  have hpending : q.pending.length < codec.samplesPerFrame := hcuts.short
  have haligned : q.resampler.Aligned codec.stride := by
    rw [Packetizer.resampler_pushAll]
    have hchunks : ∀ chunk ∈ done.map (downmix 2), chunk.length = 960 := by
      intro chunk hchunk
      obtain ⟨full, hmem, rfl⟩ := List.mem_map.mp hchunk
      rw [length_downmix_two, hfull full hmem]
    exact Resampler.aligned_processAll (Resampler.aligned_new codec) codec.two_le_stride
      ⟨_, codec.stride_mul_samplesPerFrame.symm⟩ (by decide) (by decide) hchunks
  have hlength : (downmix 2 piece).length ≤ 960 := by
    rw [length_downmix_two]
    omega
  have hstride : codec.stride ≤ 0x10000 := by cases codec <;> decide
  have hsamples : (q.resampler.process (downmix 2 piece)).1.length ≤ codec.samplesPerFrame := by
    rw [(Resampler.process_of_aligned haligned codec.two_le_stride hstride (by omega)).1,
      length_thin codec.two_le_stride, ← kept_mul codec.two_le_stride codec.samplesPerFrame,
      codec.stride_mul_samplesPerFrame]
    exact Nat.div_le_div_right (by omega)
  refine ⟨hcodec, Packetizer.length_push_le ?_ ?_⟩
  · rw [hcodec]
    exact hpending
  · rw [hcodec, hchannels]
    exact hsamples

end Pieces

/-! ## The path and the connection -/

/-- What happens to a path: twenty milliseconds pass, or the connection takes packets from the
queue. -/
inductive Occasion where
  | tick (joined : Bool) (codec : Codec)
  | take (count : Nat)

/-- A path with the packets that the connection has taken from its queue. -/
structure Transit where
  path : SendPath
  taken : List Octets := []

namespace Transit

/-- The path of a file before anything has happened. Its stream may start at any number and time. -/
def ofFile (file : AudioFile) (codec : Codec) (capacity : Nat) (ssrc : UInt32)
    (sequence : UInt16) (timestamp : UInt32) : Transit :=
  let path := SendPath.ofFile file codec capacity
  let packetizer := { path.sender.packetizer with ssrc, sequence, timestamp }
  { path := { path with sender := { path.sender with packetizer } } }

/-- The packets that were put into the queue so far. -/
def enqueued (t : Transit) : List Octets := t.taken ++ t.path.sender.queue.waiting

def step (t : Transit) : Occasion → Transit
  | .tick joined codec => { t with path := t.path.tick joined codec }
  | .take count =>
    let queue := t.path.sender.queue
    { path := { t.path with
        sender := { t.path.sender with
          queue := { queue with waiting := queue.waiting.drop count } } }
      taken := t.taken ++ queue.waiting.take count }

def run (t : Transit) (occasions : List Occasion) : Transit := occasions.foldl step t

/-- Whenever audio is taken, the client is joined, the codec is this one and the queue has room. -/
def Unhindered (codec : Codec) (t : Transit) : List Occasion → Prop
  | [] => True
  | .tick joined now :: rest =>
    joined = true ∧ now = codec ∧
      t.path.sender.queue.waiting.length < t.path.sender.queue.capacity ∧
      Unhindered codec (t.step (.tick joined now)) rest
  | .take count :: rest => Unhindered codec (t.step (.take count)) rest

def ticks (occasions : List Occasion) : Nat :=
  occasions.countP fun
    | .tick _ _ => true
    | .take _ => false

variable {t : Transit} {first : Packetizer} {done rest : List (List Int16)} {piece : List Int16}

/-- The first pieces of a file were taken, and the rest of them are still to come. -/
structure UnderWay (first : Packetizer) (done rest : List (List Int16)) (t : Transit) : Prop where
  playback : t.path.playback = { chunks := rest, fault := none }
  going : t.path.ended = false
  sound : t.path.failed = false
  opened : t.path.sender.queue.closed = false
  packetizer : t.path.sender.packetizer = (first.pushAll done).2
  enqueued : t.enqueued = written (first.pushAll done).1

/-- All pieces were taken, and what was pending after them. -/
structure Over (first : Packetizer) (pieces : List (List Int16)) (t : Transit) : Prop where
  ended : t.path.ended = true
  sound : t.path.failed = false
  enqueued : t.enqueued = written (first.packetize pieces)

theorem enqueued_take (t : Transit) (count : Nat) :
    (t.step (.take count)).enqueued = t.enqueued := by
  show t.taken ++ t.path.sender.queue.waiting.take count ++
    t.path.sender.queue.waiting.drop count = _
  rw [List.append_assoc, List.take_append_drop]
  rfl

theorem UnderWay.take (h : UnderWay first done rest t) (count : Nat) :
    UnderWay first done rest (t.step (.take count)) :=
  ⟨h.playback, h.going, h.sound, h.opened, h.packetizer, (enqueued_take t count).trans h.enqueued⟩

theorem UnderWay.tick (h : UnderWay first done (piece :: rest) t) {codec : Codec}
    (hcodec : (first.pushAll done).2.codec = codec)
    (hframe : ((first.pushAll done).2.push piece).1.length ≤ 1)
    (hroom : t.path.sender.queue.waiting.length < t.path.sender.queue.capacity) :
    UnderWay first (done ++ [piece]) rest (t.step (.tick true codec)) := by
  rw [← h.packetizer] at hcodec hframe
  have hchunk := Sender.onChunk_of_room h.opened piece (by omega)
  rw [hcodec] at hchunk
  have htick : t.path.tick true codec =
      { t.path with
        sender :=
          { t.path.sender with packetizer := (t.path.sender.packetizer.push piece).2 }.accept
            (t.path.sender.packetizer.push piece).1
        playback := { chunks := rest, fault := none } } := by
    rw [SendPath.tick, h.going, if_neg Bool.false_ne_true, h.playback]
    dsimp only
    rw [hchunk, if_pos rfl, ← h.going]
  have hpackets : written (first.pushAll (done ++ [piece])).1 =
      t.enqueued ++ written (t.path.sender.packetizer.push piece).1 := by
    rw [h.enqueued, h.packetizer, Packetizer.pushAll_concat]
    exact List.map_append
  show UnderWay first (done ++ [piece]) rest { t with path := t.path.tick true codec }
  rw [htick]
  refine ⟨rfl, h.going, h.sound, h.opened, ?_, ?_⟩
  · rw [Packetizer.pushAll_concat, ← h.packetizer]
    rfl
  · rw [hpackets]
    exact (List.append_assoc _ _ _).symm

/-- With the end of the audio what is pending is sent, and the path ends. -/
theorem UnderWay.last (h : UnderWay first done [] t) (codec : Codec)
    (hroom : t.path.sender.queue.waiting.length < t.path.sender.queue.capacity) :
    Over first done (t.step (.tick true codec)) := by
  have htick : t.path.tick true codec =
      { t.path with
        sender := { t.path.sender with packetizer := t.path.sender.packetizer.flush.2 }.accept
          t.path.sender.packetizer.flush.1.toList
        ended := true
        failed := false } := by
    rw [SendPath.tick, h.going, if_neg Bool.false_ne_true, h.playback]
    dsimp only
    rw [Sender.finish_of_room h.opened hroom, SendPath.stop, if_neg Bool.false_ne_true]
    exact congrArg (SendPath.mk _ · true false) h.playback.symm
  have hpackets : written (first.packetize done) =
      t.enqueued ++ written t.path.sender.packetizer.flush.1.toList := by
    rw [h.enqueued, h.packetizer]
    exact List.map_append
  show Over first done { t with path := t.path.tick true codec }
  rw [htick]
  refine ⟨rfl, rfl, ?_⟩
  rw [hpackets]
  exact (List.append_assoc _ _ _).symm

theorem Over.step (h : Over first done t) (occasion : Occasion) :
    Over first done (t.step occasion) := by
  cases occasion with
  | tick joined codec =>
    have htick : t.path.tick joined codec = t.path := by
      rw [SendPath.tick, if_pos h.ended]
    show Over first done { t with path := t.path.tick joined codec }
    rw [htick]
    exact h
  | take count => exact ⟨h.ended, h.sound, (enqueued_take t count).trans h.enqueued⟩

theorem Over.run (h : Over first done t) (occasions : List Occasion) :
    Over first done (t.run occasions) := by
  induction occasions generalizing t with
  | nil => exact h
  | cons occasion rest ih => exact ih (h.step occasion)

/-- Pushed one after the other, each of the pieces makes at most one frame, of this codec. -/
def Fed (first : Packetizer) (codec : Codec) (pieces : List (List Int16)) : Prop :=
  ∀ done piece rest, pieces = done ++ piece :: rest →
    (first.pushAll done).2.codec = codec ∧ ((first.pushAll done).2.push piece).1.length ≤ 1

/-- Unhindered, a tick takes one piece more, or the end of them. -/
theorem UnderWay.run {codec : Codec} {occasions : List Occasion} {pieces : List (List Int16)}
    (hfed : Fed first codec pieces) (hpieces : pieces = done ++ rest)
    (h : UnderWay first done rest t) (hoccasions : t.Unhindered codec occasions) :
    (∃ done' rest', pieces = done' ++ rest' ∧ done'.length = done.length + ticks occasions ∧
      UnderWay first done' rest' (t.run occasions)) ∨
    Over first pieces (t.run occasions) := by
  induction occasions generalizing t done rest with
  | nil => exact .inl ⟨done, rest, hpieces, rfl, h⟩
  | cons occasion occasions ih =>
    cases occasion with
    | take count => exact ih hpieces (h.take count) hoccasions
    | tick joined now =>
      obtain ⟨rfl, rfl, hroom, hlater⟩ := hoccasions
      cases rest with
      | nil =>
        rw [List.append_nil] at hpieces
        exact .inr (hpieces ▸ (h.last now hroom).run occasions)
      | cons piece rest =>
        obtain ⟨hcodec, hframe⟩ := hfed done piece rest hpieces
        have hnext := h.tick hcodec hframe hroom
        have hsplit : pieces = (done ++ [piece]) ++ rest := by
          rw [hpieces, List.append_assoc, List.singleton_append]
        rcases ih hsplit hnext hlater with ⟨done', rest', hpieces', hlength, hunder⟩ | hover
        · refine .inl ⟨done', rest', hpieces', ?_, hunder⟩
          rw [hlength, List.length_append, List.length_singleton, ticks, ticks, List.countP_cons]
          simp only [if_true]
          omega
        · exact .inr hover

theorem underWay_ofFile {name : String} {stream : ByteStream} {pieces : List (List Int16)}
    (hchunks : (AudioFile.bare name stream).chunks (.ofMillis Codec.frameMillis) = (pieces, none))
    (codec : Codec) (capacity : Nat) (ssrc : UInt32) (sequence : UInt16) (timestamp : UInt32) :
    UnderWay (.forBare codec ssrc sequence timestamp) [] pieces
      (ofFile (.bare name stream) codec capacity ssrc sequence timestamp) := by
  have hplayback : Playback.ofFile (.bare name stream) = { chunks := pieces, fault := none } := by
    rw [Playback.ofFile, hchunks]
  exact ⟨hplayback, rfl, rfl, rfl, rfl, rfl⟩

/-- A file of bare samples is opened, and as long as the client is joined, the codec stays and the
queue has room, the packets that are put into the queue are those of the whole file in one piece,
whatever bytes it holds and however its readings go: the averages of its complete pairs are thinned
to the codec's rate and stand in frames in a row. After as many ticks as the file has chunks, and
one more, all of them are there. -/
theorem sent_in_one_piece {name : String} (hname : AudioFile.isWave name = false)
    (stream : ByteStream) (codec : Codec) (capacity : Nat) (ssrc : UInt32) (sequence : UInt16)
    (timestamp : UInt32) :
    ∃ file, AudioFile.openAs name (some stream) = .ok file ∧
      ∀ occasions,
        (ofFile file codec capacity ssrc sequence timestamp).Unhindered codec occasions →
        let packets := written ((Packetizer.forBare codec ssrc sequence timestamp).framed
          (thin codec.stride (pairMeans stream.data)))
        let now := (ofFile file codec capacity ssrc sequence timestamp).run occasions
        now.enqueued <+: packets ∧
        (now.path.ended → now.enqueued = packets ∧ now.path.failed = false) ∧
        (stream.data.length / 3840 + 2 ≤ ticks occasions → now.path.ended) := by
  obtain ⟨pieces, hchunks, hpieces⟩ := AudioFile.chunks_bare name stream
  refine ⟨.bare name stream, AudioFile.openAs_of_not_isWave hname stream, ?_⟩
  intro occasions hoccasions packets now
  have hpackets : written ((Packetizer.forBare codec ssrc sequence timestamp).packetize pieces) =
      packets := congrArg written (packetize_forBare codec ssrc sequence timestamp hpieces)
  have hfed : Fed (.forBare codec ssrc sequence timestamp) codec pieces := by
    intro done piece rest hsplit
    exact push_forBare codec ssrc sequence timestamp (hsplit ▸ hpieces)
  have hstart := underWay_ofFile hchunks codec capacity ssrc sequence timestamp
  rcases hstart.run hfed rfl hoccasions with ⟨done, rest, hsplit, hlength, hunder⟩ | hover
  · have hgoing : now.path.ended = false := hunder.going
    refine ⟨?_, fun hended => ?_, fun hticks => ?_⟩
    · rw [hunder.enqueued, ← hpackets, hsplit, Packetizer.packetize, Packetizer.pushAll_append]
      simp only [written, List.map_append, List.append_assoc]
      exact List.prefix_append _ _
    · rw [hgoing] at hended
      cases hended
    · -- there are not so many pieces
      have hcount := hpieces.length_le
      rw [Octets.length_samplesLe, hsplit, List.length_append] at hcount
      rw [List.length_nil, Nat.zero_add] at hlength
      omega
  · have hall : now.enqueued = packets := hover.enqueued.trans hpackets
    exact ⟨hall ▸ List.prefix_rfl, fun _ => ⟨hall, hover.sound⟩, fun _ => hover.ended⟩

/-- Two pairs and a byte that is left over, in readings of which the first ends inside a pair. -/
theorem sent_in_one_piece_of_nine_bytes :
    let stream : ByteStream :=
      { data := [0, 1, 0, 3, 16, 0, 0, 0, 9], grants := [some 2, none, some 0] }
    let occasions := [Occasion.tick true .pcmu, .take 1, .tick true .pcmu]
    AudioFile.isWave "hold.raw" = false ∧
      ∃ file, AudioFile.openAs "hold.raw" (some stream) = .ok file ∧
        (ofFile file .pcmu 1 7 65535 0).Unhindered .pcmu occasions ∧
        ((ofFile file .pcmu 1 7 65535 0).run occasions).enqueued =
          written ((Packetizer.forBare .pcmu 7 65535 0).framed
            (thin 6 (pairMeans stream.data))) := by
  intro stream occasions
  have hname : AudioFile.isWave "hold.raw" = false := by decide +kernel
  obtain ⟨file, hopen, hsent⟩ := sent_in_one_piece hname stream .pcmu 1 7 65535 0
  have hfile : file = .bare "hold.raw" stream := by
    rw [AudioFile.openAs_of_not_isWave hname] at hopen
    exact (Except.ok.inj hopen).symm
  have hoccasions : (ofFile file .pcmu 1 7 65535 0).Unhindered .pcmu occasions := by
    rw [hfile]
    exact ⟨rfl, rfl, by decide +kernel, rfl, rfl, by decide +kernel, trivial⟩
  obtain ⟨-, hall, hended⟩ := hsent occasions hoccasions
  exact ⟨hname, file, hopen, hoccasions, (hall (hended (by decide))).1⟩

end Transit

end Parley
