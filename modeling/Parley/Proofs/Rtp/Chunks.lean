import Parley.Proofs.Rtp.InOrder
import Parley.Rtp.Packetizer

/-!
# `Parley/Proofs/Rtp/Chunks.lean` — how samples are cut into frames

What a packetizer makes of its input does not depend on where one push ends and the next begins.
The samples at the codec's rate, in one list, are cut into chunks of one frame each; the last chunk
is filled up with silence when the stream is flushed (`packetize_eq`). Each chunk becomes one frame,
and the frames carry consecutive numbers.
-/

set_option autoImplicit false

namespace Parley

namespace Audio.Resampler

/-- What chunks that come one after the other are resampled to. -/
def processAll (r : Resampler) : List (List Int16) → List Int16 × Resampler
  | [] => ([], r)
  | chunk :: rest =>
    let (out, r) := r.process chunk
    let (more, r) := processAll r rest
    (out ++ more, r)

theorem processAll_concat (r : Resampler) (chunks : List (List Int16)) (last : List Int16) :
    r.processAll (chunks ++ [last]) =
      ((r.processAll chunks).1 ++ ((r.processAll chunks).2.process last).1,
        ((r.processAll chunks).2.process last).2) := by
  induction chunks generalizing r with
  | nil => simp only [processAll, List.nil_append, List.append_nil]
  | cons chunk rest ih =>
    simp only [List.cons_append, processAll, ih, List.append_assoc]

theorem processAll_of_isPassthrough {r : Resampler} (h : r.isPassthrough = true)
    (chunks : List (List Int16)) : r.processAll chunks = (chunks.flatten, r) := by
  induction chunks with
  | nil => rfl
  | cons chunk rest ih =>
    have hchunk : r.process chunk = (chunk, r) := by simp [process, h]
    simp only [processAll, hchunk, ih, List.flatten_cons]

end Audio.Resampler

namespace Rtp

open Parley.Audio

namespace Packetizer

/-- Pushes pieces one after the other. -/
def pushAll (p : Packetizer) : List (List Int16) → List Frame × Packetizer
  | [] => ([], p)
  | piece :: rest =>
    let (frames, p) := p.push piece
    let (more, p) := pushAll p rest
    (frames ++ more, p)

/-- The frames of a stream that is pushed in pieces and then flushed. -/
def packetize (p : Packetizer) (pieces : List (List Int16)) : List Frame :=
  (p.pushAll pieces).1 ++ (p.pushAll pieces).2.flush.1.toList

/-- A stream after so many more frames and samples. -/
def advance (p : Packetizer) (frames samples : Nat) : Packetizer :=
  { p with
    sequence := p.sequence + UInt16.ofNat frames
    timestamp := p.timestamp + UInt32.ofNat samples }

/-- Making frames changes nothing but the number and the time of the next one. -/
theorem frames_snd (p : Packetizer) (chunks : List (List Int16)) :
    (p.frames chunks).2 = p.advance chunks.length chunks.flatten.length := by
  induction chunks generalizing p with
  | nil => simp [frames, advance]
  | cons chunk rest ih =>
    simp only [frames, nextFrame, ih, advance, List.length_cons, List.flatten_cons,
      List.length_append, UInt16.ofNat_add, UInt32.ofNat_add, UInt16.add_assoc, UInt32.add_assoc]
    rw [UInt16.add_comm 1]
    rfl

/-- What is pending does not enter into the frames. -/
theorem frames_with (p : Packetizer) (resampler : Resampler) (pending : List Int16)
    (chunks : List (List Int16)) :
    { p with resampler, pending }.frames chunks =
      ((p.frames chunks).1, { (p.frames chunks).2 with resampler, pending }) := by
  induction chunks generalizing p with
  | nil => rfl
  | cons chunk rest ih =>
    have hrest := ih (p.nextFrame chunk).2
    exact congrArg (fun r => ((p.nextFrame chunk).1 :: r.1, r.2)) hrest

theorem frames_append (p : Packetizer) (chunks more : List (List Int16)) :
    p.frames (chunks ++ more) =
      ((p.frames chunks).1 ++ ((p.frames chunks).2.frames more).1,
        ((p.frames chunks).2.frames more).2) := by
  induction chunks generalizing p with
  | nil => rfl
  | cons chunk rest ih =>
    have hrest := ih (p.nextFrame chunk).2
    exact congrArg (fun r => ((p.nextFrame chunk).1 :: r.1, r.2)) hrest

/-- A frame of its own for each chunk, in order. -/
theorem frames_fst (p : Packetizer) (chunks : List (List Int16)) :
    Consecutive p.sequence (p.frames chunks).1 ∧
      (p.frames chunks).1.map (fun f => (f.ssrc, f.codec, f.payload)) =
        chunks.map (fun chunk => (p.ssrc, p.codec, encode p.codec chunk)) := by
  induction chunks generalizing p with
  | nil => exact ⟨trivial, rfl⟩
  | cons chunk rest ih =>
    obtain ⟨hnumbers, hframes⟩ := ih (p.nextFrame chunk).2
    exact ⟨⟨rfl, hnumbers⟩, congrArg ((p.ssrc, p.codec, encode p.codec chunk) :: ·) hframes⟩

/-- How a packetizer comes from one state to another when samples at the codec's rate reach it: it
makes a frame of each full chunk and keeps what is too short for one. -/
structure Cuts (p : Packetizer) (samples : List Int16) (chunks : List (List Int16))
    (frames : List Frame) (q : Packetizer) : Prop where
  frames : frames = (p.frames chunks).1
  state : q = { (p.frames chunks).2 with resampler := q.resampler, pending := q.pending }
  whole : chunks.flatten ++ q.pending = p.pending ++ samples
  full : ∀ chunk ∈ chunks, chunk.length = p.codec.samplesPerFrame
  short : q.pending.length < p.codec.samplesPerFrame

variable {p q r : Packetizer} {samples samples' : List Int16} {chunks chunks' : List (List Int16)}
  {frames frames' : List Frame}

theorem cuts_refl (h : p.pending.length < p.codec.samplesPerFrame) : Cuts p [] [] [] p := by
  refine ⟨rfl, rfl, ?_, ?_, h⟩
  · rw [List.append_nil]
    rfl
  · intro chunk hchunk
    cases hchunk

theorem Cuts.codec (h : Cuts p samples chunks frames q) :
    q.codec = p.codec ∧ q.channels = p.channels := by
  rw [h.state, frames_snd]
  exact ⟨rfl, rfl⟩

/-- The frames that follow are those that the first state would make of further chunks. -/
theorem Cuts.frames_append (h : Cuts p samples chunks frames q) (more : List (List Int16)) :
    (p.frames (chunks ++ more)).1 = frames ++ (q.frames more).1 ∧
      ∀ resampler pending, { (p.frames (chunks ++ more)).2 with resampler, pending } =
        { (q.frames more).2 with resampler, pending } := by
  have hq : q.frames more = (((p.frames chunks).2.frames more).1,
      { ((p.frames chunks).2.frames more).2 with
        resampler := q.resampler, pending := q.pending }) := by
    have hwith := frames_with (p.frames chunks).2 q.resampler q.pending more
    rwa [← h.state] at hwith
  rw [Packetizer.frames_append, hq, h.frames]
  exact ⟨rfl, fun _ _ => rfl⟩

theorem Cuts.trans (h : Cuts p samples chunks frames q)
    (h' : Cuts q samples' chunks' frames' r) :
    Cuts p (samples ++ samples') (chunks ++ chunks') (frames ++ frames') r := by
  obtain ⟨hframes, hstate⟩ := h.frames_append chunks'
  obtain ⟨hcodec, -⟩ := h.codec
  refine ⟨?_, ?_, ?_, ?_, ?_⟩
  · rw [hframes, h'.frames]
  · rw [hstate]
    exact h'.state
  · calc (chunks ++ chunks').flatten ++ r.pending
        = chunks.flatten ++ (chunks'.flatten ++ r.pending) := by
          rw [List.flatten_append, List.append_assoc]
      _ = (chunks.flatten ++ q.pending) ++ samples' := by
          rw [h'.whole, List.append_assoc]
      _ = p.pending ++ (samples ++ samples') := by
          rw [h.whole, List.append_assoc]
  · intro chunk hchunk
    rcases List.mem_append.mp hchunk with hfirst | hsecond
    · exact h.full chunk hfirst
    · rw [← hcodec]
      exact h'.full chunk hsecond
  · rw [← hcodec]
    exact h'.short

theorem cuts_push (p : Packetizer) (piece : List Int16) :
    ∃ chunks, Cuts p (p.resampler.process (downmix p.channels piece)).1 chunks
        (p.push piece).1 (p.push piece).2 ∧
      (p.push piece).2.resampler = (p.resampler.process (downmix p.channels piece)).2 := by
  refine ⟨groups p.codec.samplesPerFrame
    (p.pending ++ (p.resampler.process (downmix p.channels piece)).1), ?_⟩
  unfold push
  dsimp only
  rw [frames_with]
  refine ⟨⟨rfl, rfl, ?_, ?_, ?_⟩, rfl⟩
  · exact flatten_groups _ _
  · intro chunk hchunk
    exact length_of_mem_groups hchunk
  · exact length_leftover_lt p.codec.samplesPerFrame_pos _

theorem cuts_pushAll (p : Packetizer) (pieces : List (List Int16))
    (hshort : p.pending.length < p.codec.samplesPerFrame) :
    ∃ chunks, Cuts p (p.resampler.processAll (pieces.map (downmix p.channels))).1 chunks
      (p.pushAll pieces).1 (p.pushAll pieces).2 := by
  induction pieces generalizing p with
  | nil => exact ⟨[], cuts_refl hshort⟩
  | cons piece rest ih =>
    obtain ⟨chunks, hpush, hresampler⟩ := cuts_push p piece
    obtain ⟨hcodec, hchannels⟩ := hpush.codec
    obtain ⟨chunks', hrest⟩ := ih (p.push piece).2 (hcodec ▸ hpush.short)
    rw [hresampler, hchannels] at hrest
    exact ⟨chunks ++ chunks', hpush.trans hrest⟩

/-- What is pending, filled up with silence. -/
def lastChunk (p : Packetizer) : List Int16 :=
  p.pending ++ List.replicate (p.codec.samplesPerFrame - p.pending.length) 0

theorem length_lastChunk (hshort : p.pending.length < p.codec.samplesPerFrame) :
    p.lastChunk.length = p.codec.samplesPerFrame := by
  rw [lastChunk, List.length_append, List.length_replicate]
  omega

/-- The last frame is made of what is pending and silence. -/
theorem flush_of_pending (hpending : p.pending ≠ [])
    (hshort : p.pending.length < p.codec.samplesPerFrame) :
    p.flush = (some (p.nextFrame p.lastChunk).1,
      { (p.nextFrame p.lastChunk).2 with pending := [] }) := by
  have hsome : p.pending.isEmpty = false := by simpa using hpending
  have htake : p.lastChunk.take p.codec.samplesPerFrame = p.lastChunk :=
    List.take_of_length_le (Nat.le_of_eq (length_lastChunk hshort))
  rw [lastChunk] at htake
  simp only [flush, hsome, Bool.false_eq_true, if_false, htake]
  rfl

/-- A stream that is pushed in pieces and flushed consists of one frame for each chunk of all its
samples in a row, the last chunk filled up with silence. -/
theorem packetize_eq (p : Packetizer) (pieces : List (List Int16))
    (hshort : p.pending.length < p.codec.samplesPerFrame) :
    ∃ chunks silence, p.packetize pieces = (p.frames chunks).1 ∧
      chunks.flatten =
        p.pending ++ (p.resampler.processAll (pieces.map (downmix p.channels))).1
          ++ List.replicate silence 0 ∧
      (∀ chunk ∈ chunks, chunk.length = p.codec.samplesPerFrame) ∧
      silence < p.codec.samplesPerFrame := by
  obtain ⟨chunks, hcuts⟩ := cuts_pushAll p pieces hshort
  obtain ⟨hcodec, -⟩ := hcuts.codec
  unfold packetize
  generalize (p.pushAll pieces).1 = frames at hcuts ⊢
  generalize (p.pushAll pieces).2 = q at hcuts hcodec ⊢
  have hlength := hcuts.short
  by_cases hpending : q.pending = []
  · refine ⟨chunks, 0, ?_, ?_, hcuts.full, p.codec.samplesPerFrame_pos⟩
    · simp [flush, hpending, hcuts.frames]
    · rw [← hcuts.whole, hpending, List.append_nil, List.replicate_zero, List.append_nil]
  · have hpos := List.length_pos_of_ne_nil hpending
    have hshort' : q.pending.length < q.codec.samplesPerFrame := hcodec ▸ hlength
    refine ⟨chunks ++ [q.lastChunk], p.codec.samplesPerFrame - q.pending.length, ?_, ?_, ?_,
      by omega⟩
    · rw [(hcuts.frames_append _).1, flush_of_pending hpending hshort']
      rfl
    · rw [List.flatten_append, List.flatten_singleton, lastChunk, hcodec, ← List.append_assoc,
        hcuts.whole]
    · intro chunk hchunk
      rcases List.mem_append.mp hchunk with hfull | hlast
      · exact hcuts.full chunk hfull
      · rw [List.mem_singleton.mp hlast, length_lastChunk hshort', hcodec]

end Packetizer

end Rtp

end Parley
